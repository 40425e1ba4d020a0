import Viosnd.Control.Messages

/-!
# Whose memory a control message is

A message belongs to its call until it is on the virtqueue, and after the call has found it there.
In between it belongs to the device. A call that times out leaves it to a later call.
-/

namespace Viosnd.Control

open StepRun

/-! ## The memory of the messages -/

structure Device.Sound (d : Device) : Prop where
  heap : ∀ a m, d.heap a = some m →
    m.call < d.nextCall ∧ m.call ∉ d.log.freed ∧ (m.call, m.request) ∈ d.log.called
  distinct : ∀ a b m m', d.heap a = some m → d.heap b = some m' → m.call = m'.call → a = b
  queued : (d.queue.items.map Chain.call).Nodup
  onQueue : ∀ chain ∈ d.queue.items, ∃ m, d.heap chain.message = some m ∧ m.call = chain.call
  /-- What was completed is in the response buffer. -/
  completed : ∀ e ∈ d.queue.completed, ∀ m, d.heap e.1.1.message = some m →
    (m.call, m.request, m.response) ∈ d.log.answered
  freed : d.log.freed.Nodup
  freedBefore : ∀ call ∈ d.log.freed, call < d.nextCall
  noWildFree : d.log.wildFrees = 0

variable {d d' : Device} {c : Command} {a b : Place} {message : ℕ} {m : Message}

theorem freeControlMessage_eq (h : d.heap message = some m) : freeControlMessage d message =
    { d with
      heap := Function.update d.heap message none
      log := { d.log with
        freed := d.log.freed ++ [m.call] } } := by
  unfold freeControlMessage
  rw [h]

theorem reclaimMessage_eq (h : d.heap message = some m) (c : Command) :
    reclaimMessage d c message = { d with
      heap := Function.update d.heap message none
      log := { d.log with
        freed := d.log.freed ++ [m.call]
        reclaimed := d.log.reclaimed ++ [(c.number, m.call)] } } := by
  unfold reclaimMessage
  rw [freeControlMessage_eq h, h]
  rfl

theorem finishMessage_eq (h : d.heap message = some m) (c : Command) :
    finishMessage d c message = { d with
      mutex := false
      heap := Function.update d.heap message none
      log := { d.log with
        freed := d.log.freed ++ [m.call]
        returned := d.log.returned ++
          [⟨c.number, .success, m.response.take c.responseLength⟩] } } := by
  unfold finishMessage
  rw [freeControlMessage_eq h, h]
  rfl

theorem heap_update_none {x : ℕ} {m' : Message}
    (h : Function.update d.heap message none x = some m') : x ≠ message ∧ d.heap x = some m' := by
  by_cases hx : x = message
  · subst hx
    rw [Function.update_self] at h
    cases h
  · rw [Function.update_of_ne hx] at h
    exact ⟨hx, h⟩

theorem Device.Sound.free (h : d.Sound) (hm : d.heap message = some m)
    (hoff : m.call ∉ d.queue.items.map Chain.call) : (freeControlMessage d message).Sound := by
  rw [freeControlMessage_eq hm]
  obtain ⟨hbefore, hnew, -⟩ := h.heap message m hm
  have hlive : ∀ chain ∈ d.queue.items, chain.message ≠ message := by
    intro chain hchain heq
    obtain ⟨m', hm', hcall⟩ := h.onQueue chain hchain
    rw [heq, hm] at hm'
    obtain rfl := Option.some.inj hm'
    exact hoff (hcall ▸ List.mem_map_of_mem hchain)
  refine ⟨fun x m' hx => ?_, fun x y m₁ m₂ hx hy => ?_, h.queued, fun chain hchain => ?_,
    fun e he m' hx => ?_, ?_, fun call hcall => ?_, h.noWildFree⟩
  · obtain ⟨hne, hx⟩ := heap_update_none hx
    obtain ⟨hlt, hunfreed, hcalled⟩ := h.heap x m' hx
    refine ⟨hlt, fun hmem => ?_, hcalled⟩
    rcases List.mem_append.mp hmem with hold | hlast
    · exact hunfreed hold
    · exact hne (h.distinct x message m' m hx hm (List.mem_singleton.mp hlast))
  · exact h.distinct x y m₁ m₂ (heap_update_none hx).2 (heap_update_none hy).2
  · obtain ⟨m', hm', hcall⟩ := h.onQueue chain hchain
    exact ⟨m', (Function.update_of_ne (hlive chain hchain) _ _).trans hm', hcall⟩
  · exact h.completed e he m' (heap_update_none hx).2
  · exact List.nodup_append'.mpr ⟨h.freed, List.nodup_singleton _, by
      simpa [List.disjoint_singleton] using hnew⟩
  · rcases List.mem_append.mp hcall with hold | hlast
    · exact h.freedBefore call hold
    · rw [List.mem_singleton.mp hlast]
      exact hbefore

theorem Device.Sound.get (h : d.Sound) {chain : Chain} {length : BitVec 32}
    {queue : BoundedQueue Chain (BitVec 32)} (hget : d.queue.get = some ((chain, length), queue)) :
    Device.Sound { d with queue := queue } ∧ chain.call ∉ queue.items.map Chain.call ∧
      chain ∈ d.queue.items ∧
      ∀ m, d.heap chain.message = some m → (m.call, m.request, m.response) ∈ d.log.answered := by
  have hperm := BoundedQueue.get_items hget
  obtain ⟨cost, hcompleted, -, -⟩ := BoundedQueue.get_eq_some hget
  have hnodup := (hperm.map Chain.call).nodup_iff.mp h.queued
  rw [List.map_cons, List.nodup_cons] at hnodup
  refine ⟨⟨h.heap, h.distinct, hnodup.2, fun other hother => ?_, fun e he => ?_, h.freed,
    h.freedBefore, h.noWildFree⟩, hnodup.1, hperm.mem_iff.mpr List.mem_cons_self, fun m hm => ?_⟩
  · exact h.onQueue other (hperm.mem_iff.mpr (List.mem_cons_of_mem _ hother))
  · apply h.completed e
    rw [hcompleted]
    exact List.mem_cons_of_mem _ he
  · apply h.completed ((chain, cost), length) _ m hm
    rw [hcompleted]
    exact List.mem_cons_self

theorem Device.Sound.add (h : d.Sound) (hm : d.heap message = some m) {cost : ℕ}
    (hoff : m.call ∉ d.queue.items.map Chain.call) {queue : BoundedQueue Chain (BitVec 32)}
    (hadd : d.queue.add ⟨message, m.call⟩ cost = some queue) :
    Device.Sound { d with queue := queue } := by
  have hperm := BoundedQueue.add_items hadd
  refine ⟨h.heap, h.distinct, ?_, fun chain hchain => ?_, fun e he => ?_, h.freed, h.freedBefore,
    h.noWildFree⟩
  · rw [(hperm.map Chain.call).nodup_iff, List.map_cons, List.nodup_cons]
    exact ⟨hoff, h.queued⟩
  · rcases List.mem_cons.mp (hperm.mem_iff.mp hchain) with rfl | hold
    · exact ⟨m, hm, rfl⟩
    · exact h.onQueue chain hold
  · apply h.completed e
    rw [BoundedQueue.add_eq_some hadd] at he
    exact he

theorem Device.Sound.allocate (h : d.Sound) (hfree : d.heap message = none) (response : List Byte)
    (hbefore : c.number < d.nextCall) (hunfreed : c.number ∉ d.log.freed)
    (hcalled : (c.number, c.request) ∈ d.log.called)
    (hnone : ∀ x m, d.heap x = some m → m.call ≠ c.number) :
    Device.Sound { d with
      heap := Function.update d.heap message (some ⟨c.number, c.request, response⟩) } := by
  have hcases : ∀ x m, Function.update d.heap message (some ⟨c.number, c.request, response⟩) x =
      some m → (x = message ∧ m = ⟨c.number, c.request, response⟩) ∨ d.heap x = some m := by
    intro x m hx
    by_cases heq : x = message
    · subst heq
      rw [Function.update_self] at hx
      exact Or.inl ⟨rfl, (Option.some.inj hx).symm⟩
    · rw [Function.update_of_ne heq] at hx
      exact Or.inr hx
  refine ⟨fun x m hx => ?_, fun x y m m' hx hy hcall => ?_, h.queued, fun chain hchain => ?_,
    fun e he m hx => ?_, h.freed, h.freedBefore, h.noWildFree⟩
  · rcases hcases x m hx with ⟨-, rfl⟩ | hold
    · exact ⟨hbefore, hunfreed, hcalled⟩
    · exact h.heap x m hold
  · rcases hcases x m hx with ⟨rfl, rfl⟩ | holdx
    · rcases hcases y m' hy with ⟨rfl, -⟩ | holdy
      · rfl
      · exact absurd hcall.symm (hnone y m' holdy)
    · rcases hcases y m' hy with ⟨rfl, rfl⟩ | holdy
      · exact absurd hcall (hnone x m holdx)
      · exact h.distinct x y m m' holdx holdy hcall
  · obtain ⟨m, hm, hcall⟩ := h.onQueue chain hchain
    have hne : chain.message ≠ message := by
      intro heq
      rw [heq, hfree] at hm
      cases hm
    exact ⟨m, (Function.update_of_ne hne _ _).trans hm, hcall⟩
  · have hitem : e.1.1 ∈ d.queue.items :=
      List.mem_append_right _ (List.mem_map_of_mem he)
    rcases hcases _ m hx with ⟨heq, -⟩ | hold
    · obtain ⟨m', hm', -⟩ := h.onQueue e.1.1 hitem
      rw [heq, hfree] at hm'
      cases hm'
    · exact h.completed e he m hold

theorem Device.Sound.complete (h : d.Sound) (k : ℕ) (written : List Byte) (length : BitVec 32) :
    (d.complete k written length).Sound := by
  unfold Device.complete
  cases hk : d.queue.inFlight[k]? with
  | none => exact h
  | some entry =>
      obtain ⟨chain, cost⟩ := entry
      have hflight : chain ∈ d.queue.inFlight.map Prod.fst :=
        List.mem_map.mpr ⟨_, List.mem_of_getElem? hk, rfl⟩
      obtain ⟨m, hm, hcall⟩ := h.onQueue chain (List.mem_append_left _ hflight)
      simp only [hm]
      have hperm := BoundedQueue.complete_items d.queue k length
      have hcompleted : (d.queue.complete k length).completed =
          d.queue.completed ++ [((chain, cost), length)] := by
        simp only [BoundedQueue.complete, hk]
      have hcases : ∀ response x m', Function.update d.heap chain.message (some { m with
          response := response }) x = some m' →
          (x = chain.message ∧ m' = { m with
            response := response }) ∨ d.heap x = some m' := by
        intro response x m' hx
        by_cases heq : x = chain.message
        · subst heq
          rw [Function.update_self] at hx
          exact Or.inl ⟨rfl, (Option.some.inj hx).symm⟩
        · rw [Function.update_of_ne heq] at hx
          exact Or.inr hx
      -- a completed chain is not the one in flight
      have hother : ∀ e ∈ d.queue.completed, e.1.1.message ≠ chain.message := by
        intro e he heq
        have hitem : e.1.1 ∈ d.queue.completed.map fun c => c.1.1 := List.mem_map_of_mem he
        obtain ⟨m', hm', hcall'⟩ := h.onQueue e.1.1 (List.mem_append_right _ hitem)
        rw [heq, hm] at hm'
        obtain rfl := Option.some.inj hm'
        have hnodup := h.queued
        unfold BoundedQueue.items at hnodup
        rw [List.map_append, List.nodup_append'] at hnodup
        refine hnodup.2.2 (List.mem_map_of_mem hflight) ?_
        rw [← hcall, hcall']
        exact List.mem_map_of_mem hitem
      refine ⟨fun x m' hx => ?_, fun x y m₁ m₂ hx hy heq => ?_, ?_, fun other hmem => ?_,
        fun e he m' hx => ?_, h.freed, h.freedBefore, h.noWildFree⟩
      · rcases hcases _ x m' hx with ⟨rfl, rfl⟩ | hold
        · exact h.heap _ m hm
        · exact h.heap x m' hold
      · rcases hcases _ x m₁ hx with ⟨rfl, rfl⟩ | holdx
        · rcases hcases _ y m₂ hy with ⟨rfl, -⟩ | holdy
          · rfl
          · exact h.distinct _ y m m₂ hm holdy heq
        · rcases hcases _ y m₂ hy with ⟨rfl, rfl⟩ | holdy
          · exact h.distinct x _ m₁ m holdx hm heq
          · exact h.distinct x y m₁ m₂ holdx holdy heq
      · exact (hperm.map Chain.call).nodup_iff.mpr h.queued
      · obtain ⟨m', hm', hcall'⟩ := h.onQueue other (hperm.mem_iff.mp hmem)
        by_cases heq : other.message = chain.message
        · rw [heq, hm] at hm'
          obtain rfl := Option.some.inj hm'
          refine ⟨{ m with
            response := written.take m.response.length ++ m.response.drop written.length }, ?_,
            hcall'⟩
          rw [heq]
          exact Function.update_self _ _ _
        · exact ⟨m', (Function.update_of_ne heq _ _).trans hm', hcall'⟩
      · rw [hcompleted] at he
        rcases List.mem_append.mp he with hold | hlast
        · rcases hcases _ _ m' hx with ⟨heq, -⟩ | hheap
          · exact absurd heq (hother e hold)
          · exact List.mem_append_left _ (h.completed e hold m' hheap)
        · rw [List.mem_singleton.mp hlast] at hx
          dsimp only at hx
          rw [Function.update_self] at hx
          rw [← Option.some.inj hx, ← hcall]
          exact List.mem_append_right _ (List.mem_singleton_self _)

/-! ## Calls in progress -/

def Place.command : Place → Option Command
  | .idle => none
  | .allocate c => some c
  | .acquire c _ => some c
  | .add c _ => some c
  | .poll c _ _ => some c
  | .discard c _ _ => some c

/-- The thread holds `ControlQueueMutex`. -/
def Place.locked : Place → Bool
  | .add _ _ => true
  | .poll _ _ _ => true
  | _ => false

/-- The memory at the address is the message of the call. -/
def Device.Has (d : Device) (c : Command) (message : ℕ) : Prop :=
  ∃ m, d.heap message = some m ∧ m.call = c.number ∧ m.request = c.request ∧
    m.response.length = c.responseLength

def Place.Owns (d : Device) : Place → Prop
  | .idle => True
  | .allocate c => ∀ x m, d.heap x = some m → m.call ≠ c.number
  | .acquire c message => d.Has c message ∧ c.number ∉ d.queue.items.map Chain.call
  | .add c message => d.Has c message ∧ c.number ∉ d.queue.items.map Chain.call
  | .poll c message _ => d.Has c message ∧ ⟨message, c.number⟩ ∈ d.queue.items
  | .discard c message status => d.Has c message ∧ c.number ∉ d.queue.items.map Chain.call ∧
      status ≠ .success

/-- The device is the same to the call `n`. -/
structure Device.Same (d d' : Device) (n : ℕ) : Prop where
  kept : ∀ x m, d.heap x = some m → m.call = n → ∃ m', d'.heap x = some m' ∧ m'.call = n ∧
    m'.request = m.request ∧ m'.response.length = m.response.length
  back : ∀ x m', d'.heap x = some m' → m'.call = n → ∃ m, d.heap x = some m ∧ m.call = n
  queue : ∀ x, ⟨x, n⟩ ∈ d'.queue.items ↔ ⟨x, n⟩ ∈ d.queue.items

theorem Device.Same.has (h : Device.Same d d' c.number) (hhas : d.Has c message) :
    d'.Has c message := by
  obtain ⟨m, hm, hcall, hrequest, hlength⟩ := hhas
  obtain ⟨m', hm', hcall', hrequest', hlength'⟩ := h.kept message m hm hcall
  exact ⟨m', hm', hcall', hrequest'.trans hrequest, hlength'.trans hlength⟩

theorem Device.Same.off {n : ℕ} (h : Device.Same d d' n)
    (hoff : n ∉ d.queue.items.map Chain.call) : n ∉ d'.queue.items.map Chain.call := by
  intro hmem
  obtain ⟨⟨x, call⟩, hchain, rfl⟩ := List.mem_map.mp hmem
  exact hoff (List.mem_map_of_mem ((h.queue x).mp hchain))

theorem Place.Owns.frame (h : a.Owns d) (hsame : ∀ c ∈ a.command, Device.Same d d' c.number) :
    a.Owns d' := by
  cases a with
  | idle => trivial
  | allocate c =>
      intro x m' hm' hcall
      obtain ⟨m, hm, hcall'⟩ := (hsame c rfl).back x m' hm' hcall
      exact h x m hm hcall'
  | acquire c message => exact ⟨(hsame c rfl).has h.1, (hsame c rfl).off h.2⟩
  | add c message => exact ⟨(hsame c rfl).has h.1, (hsame c rfl).off h.2⟩
  | poll c message elapsedUs => exact ⟨(hsame c rfl).has h.1, ((hsame c rfl).queue message).mpr h.2⟩
  | discard c message status => exact ⟨(hsame c rfl).has h.1, (hsame c rfl).off h.2.1, h.2.2⟩

theorem Device.Same.trans {d₁ d₂ d₃ : Device} {n : ℕ} (first : Device.Same d₁ d₂ n)
    (second : Device.Same d₂ d₃ n) : Device.Same d₁ d₃ n := by
  refine ⟨fun x m hm hcall => ?_, fun x m hm hcall => ?_, fun x => ?_⟩
  · obtain ⟨m', hm', hcall', hrequest', hlength'⟩ := first.kept x m hm hcall
    obtain ⟨m'', hm'', hcall'', hrequest'', hlength''⟩ := second.kept x m' hm' hcall'
    exact ⟨m'', hm'', hcall'', hrequest''.trans hrequest', hlength''.trans hlength'⟩
  · obtain ⟨m', hm', hcall'⟩ := second.back x m hm hcall
    exact first.back x m' hm' hcall'
  · exact (second.queue x).trans (first.queue x)

theorem Device.same_of_eq {n : ℕ} (hheap : d'.heap = d.heap) (hqueue : d'.queue = d.queue) :
    Device.Same d d' n := by
  refine ⟨fun x m hm hcall => ⟨m, by rw [hheap, hm], hcall, rfl, rfl⟩, fun x m' hm' hcall => ?_,
    fun x => by rw [hqueue]⟩
  rw [hheap] at hm'
  exact ⟨m', hm', hcall⟩

theorem freeControlMessage_same {n : ℕ} (hm : d.heap message = some m) (hne : m.call ≠ n) :
    Device.Same d (freeControlMessage d message) n := by
  rw [freeControlMessage_eq hm]
  refine ⟨fun x m' hx hcall => ⟨m', ?_, hcall, rfl, rfl⟩, fun x m' hx hcall => ?_,
    fun _ => Iff.rfl⟩
  · have hx' : x ≠ message := by
      rintro rfl
      rw [hm] at hx
      exact hne (Option.some.inj hx ▸ hcall)
    exact (Function.update_of_ne hx' _ _).trans hx
  · exact ⟨m', (heap_update_none hx).2, hcall⟩

theorem get_same {n : ℕ} {chain : Chain} {length : BitVec 32}
    {queue : BoundedQueue Chain (BitVec 32)} (hget : d.queue.get = some ((chain, length), queue))
    (hne : chain.call ≠ n) : Device.Same d { d with
      queue := queue } n := by
  refine ⟨fun x m hm hcall => ⟨m, hm, hcall, rfl, rfl⟩, fun x m hm hcall => ⟨m, hm, hcall⟩,
    fun x => ?_⟩
  dsimp only
  rw [(BoundedQueue.get_items hget).mem_iff, List.mem_cons, or_iff_right]
  rintro rfl
  exact hne rfl

theorem add_same {n : ℕ} {chain : Chain} {cost : ℕ} {queue : BoundedQueue Chain (BitVec 32)}
    (hadd : d.queue.add chain cost = some queue) (hne : chain.call ≠ n) :
    Device.Same d { d with
      queue := queue } n := by
  refine ⟨fun x m hm hcall => ⟨m, hm, hcall, rfl, rfl⟩, fun x m hm hcall => ⟨m, hm, hcall⟩,
    fun x => ?_⟩
  dsimp only
  rw [(BoundedQueue.add_items hadd).mem_iff, List.mem_cons, or_iff_right]
  rintro rfl
  exact hne rfl

theorem allocate_same {n : ℕ} (hfree : d.heap message = none) (hne : m.call ≠ n) :
    Device.Same d { d with
      heap := Function.update d.heap message (some m) } n := by
  refine ⟨fun x m' hm' hcall => ⟨m', ?_, hcall, rfl, rfl⟩, fun x m' hm' hcall => ?_,
    fun _ => Iff.rfl⟩
  · have hx : x ≠ message := by
      rintro rfl
      rw [hfree] at hm'
      cases hm'
    exact (Function.update_of_ne hx _ _).trans hm'
  · by_cases hx : x = message
    · subst hx
      dsimp only at hm'
      rw [Function.update_self] at hm'
      exact absurd (Option.some.inj hm' ▸ hcall) hne
    · exact ⟨m', (Function.update_of_ne hx _ _).symm.trans hm', hcall⟩

theorem complete_same (h : d.Sound) (k : ℕ) (written : List Byte) (length : BitVec 32) (n : ℕ) :
    Device.Same d (d.complete k written length) n := by
  unfold Device.complete
  cases hk : d.queue.inFlight[k]? with
  | none => exact Device.same_of_eq rfl rfl
  | some entry =>
      obtain ⟨chain, cost⟩ := entry
      have hflight : chain ∈ d.queue.inFlight.map Prod.fst :=
        List.mem_map.mpr ⟨_, List.mem_of_getElem? hk, rfl⟩
      obtain ⟨m, hm, -⟩ := h.onQueue chain (List.mem_append_left _ hflight)
      simp only [hm]
      refine ⟨fun x m' hm' hcall => ?_, fun x m' hm' hcall => ?_, fun x => ?_⟩
      · by_cases hx : x = chain.message
        · subst hx
          rw [hm] at hm'
          obtain rfl := Option.some.inj hm'
          refine ⟨_, Function.update_self _ _ _, hcall, rfl, ?_⟩
          simp only [List.length_append, List.length_take, List.length_drop]
          omega
        · exact ⟨m', (Function.update_of_ne hx _ _).trans hm', hcall, rfl, rfl⟩
      · by_cases hx : x = chain.message
        · subst hx
          dsimp only at hm'
          rw [Function.update_self] at hm'
          obtain rfl := Option.some.inj hm'
          exact ⟨m, hm, hcall⟩
        · exact ⟨m', (Function.update_of_ne hx _ _).symm.trans hm', hcall⟩
      · exact (BoundedQueue.complete_items d.queue k length).mem_iff

end Viosnd.Control
