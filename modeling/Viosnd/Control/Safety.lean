import Viosnd.Control.Ownership

/-!
# The safety of the control queue

Calls of any number of threads, the device and the timeouts take turns. No step loses a message,
frees one twice or hands a call the response to another request.
-/

namespace Viosnd.Control

open StepRun

/-! ## What the protocol is for -/

structure ControlSafety (w : World) : Prop where
  /-- A successful call copied what the device wrote for the request of the call. -/
  answered : ∀ r ∈ w.device.log.returned, r.status = .success →
    ∃ request, (r.call, request) ∈ w.device.log.called ∧
      (r.call, request, r.response) ∈ w.device.log.answered
  /-- A chain on the queue has its memory. -/
  onQueue : ∀ chain ∈ w.device.queue.items,
    ∃ m, w.device.heap chain.message = some m ∧ m.call = chain.call
  noWildFree : w.device.log.wildFrees = 0
  freedOnce : w.device.log.freed.Nodup
  /-- A message whose call timed out is on the queue, or another call has found and freed it. -/
  timedOut : ∀ call ∈ w.device.log.timedOut,
    call ∈ w.device.log.reclaimed.map Prod.snd ∨
      call ∈ w.device.queue.items.map Chain.call ∧ call ∉ w.device.log.freed
  reclaimed : ∀ pair ∈ w.device.log.reclaimed,
    pair.1 ≠ pair.2 ∧ pair.2 ∈ w.device.log.timedOut ∧ pair.2 ∈ w.device.log.freed

variable {d d' : Device} {c : Command} {a b : Place} {message : ℕ} {m : Message}

/-! ## What a step keeps -/

structure Device.Booked (d : Device) : Prop where
  answered : ∀ r ∈ d.log.returned, r.status = .success →
    ∃ request, (r.call, request) ∈ d.log.called ∧ (r.call, request, r.response) ∈ d.log.answered
  timedOut : ∀ call ∈ d.log.timedOut, call ∈ d.log.reclaimed.map Prod.snd ∨
    call ∈ d.queue.items.map Chain.call ∧ call ∉ d.log.freed
  reclaimed : ∀ pair ∈ d.log.reclaimed,
    pair.1 ≠ pair.2 ∧ pair.2 ∈ d.log.timedOut ∧ pair.2 ∈ d.log.freed
  timedOutBefore : ∀ call ∈ d.log.timedOut, call < d.nextCall

structure Device.InProgress (d : Device) (c : Command) : Prop where
  before : c.number < d.nextCall
  unfreed : c.number ∉ d.log.freed
  waiting : c.number ∉ d.log.timedOut
  called : (c.number, c.request) ∈ d.log.called

/-- Whoever polls for a message on the queue; the other messages have timed out. -/
def Device.Polled (d : Device) (a : Place) : Prop :=
  ∀ chain ∈ d.queue.items, chain.call ∈ d.log.timedOut ∨
    ∃ c message elapsedUs, a = .poll c message elapsedUs ∧ c.number = chain.call

/-- A message found by a call that polls for another one has timed out. -/
private theorem Device.Sound.victim (h : d.Sound) {elapsedUs : ℕ} (hhas : d.Has c message)
    (hpolled : d.Polled (.poll c message elapsedUs)) {chain : Chain}
    (hchain : chain ∈ d.queue.items) (hne : chain.message ≠ message) :
    chain.call ∈ d.log.timedOut := by
  refine (hpolled chain hchain).resolve_right ?_
  rintro ⟨c', message', elapsedUs', hpoll, hcall⟩
  obtain ⟨rfl, -, -⟩ := Place.poll.inj hpoll
  obtain ⟨m, hm, hmc, -⟩ := hhas
  obtain ⟨m', hm', hmc'⟩ := h.onQueue chain hchain
  exact hne (h.distinct _ _ m' m hm' hm (hmc'.trans (hcall.symm.trans hmc.symm)))

structure Ready (d : Device) (a : Place) : Prop where
  sound : d.Sound
  booked : d.Booked
  owns : a.Owns d
  inProgress : ∀ c ∈ a.command, d.InProgress c
  polled : a.locked = true → d.Polled a

theorem Moves.sound (hmoves : Moves d a d' b) (h : Ready d a) : d'.Sound := by
  have hs := h.sound
  cases hmoves with
  | noBuffers c =>
      obtain ⟨hbefore, hunfreed, -, -⟩ := h.inProgress c rfl
      refine ⟨fun x m hm => ?_, hs.distinct, hs.queued, hs.onQueue, hs.completed, ?_,
        fun call hcall => ?_, hs.noWildFree⟩
      · obtain ⟨hlt, hnot, hcalled⟩ := hs.heap x m hm
        refine ⟨hlt, fun hmem => ?_, hcalled⟩
        rcases List.mem_append.mp hmem with hold | hlast
        · exact hnot hold
        · exact h.owns x m hm (List.mem_singleton.mp hlast)
      · exact List.nodup_append'.mpr ⟨hs.freed, List.nodup_singleton _, by
          simpa [List.disjoint_singleton] using hunfreed⟩
      · rcases List.mem_append.mp hcall with hold | hlast
        · exact hs.freedBefore call hold
        · rw [List.mem_singleton.mp hlast]
          exact hbefore
  | allocate c message hfree =>
      obtain ⟨hbefore, hunfreed, -, hcalled⟩ := h.inProgress c rfl
      exact hs.allocate hfree _ hbefore hunfreed hcalled h.owns
  | add c message queue hadd =>
      obtain ⟨⟨m, hm, hcall, -, -⟩, hoff⟩ := h.owns
      rw [← hcall] at hoff hadd
      exact hs.add hm hoff hadd
  | reclaim c message elapsedUs chain length queue hget hne =>
      obtain ⟨hs', hoff, hchain, -⟩ := hs.get hget
      obtain ⟨m, hm, hcall⟩ := hs.onQueue chain hchain
      have hfreed := hs'.free hm (by rw [hcall]; exact hoff)
      exact ⟨hfreed.heap, hfreed.distinct, hfreed.queued, hfreed.onQueue, hfreed.completed,
        hfreed.freed, hfreed.freedBefore, hfreed.noWildFree⟩
  | finish c message elapsedUs chain length queue hget heq =>
      obtain ⟨hs', hoff, hchain, -⟩ := hs.get hget
      obtain ⟨m, hm, hcall⟩ := hs.onQueue chain hchain
      rw [heq] at hm
      have hfreed := hs'.free hm (by rw [hcall]; exact hoff)
      exact ⟨hfreed.heap, hfreed.distinct, hfreed.queued, hfreed.onQueue, hfreed.completed,
        hfreed.freed, hfreed.freedBefore, hfreed.noWildFree⟩
  | discard c message status =>
      obtain ⟨⟨m, hm, hcall, -, -⟩, hoff, -⟩ := h.owns
      have hfreed := hs.free hm (by rw [hcall]; exact hoff)
      exact ⟨hfreed.heap, hfreed.distinct, hfreed.queued, hfreed.onQueue, hfreed.completed,
        hfreed.freed, hfreed.freedBefore, hfreed.noWildFree⟩
  | _ => exact ⟨hs.heap, hs.distinct, hs.queued, hs.onQueue, hs.completed, hs.freed,
      hs.freedBefore, hs.noWildFree⟩

theorem Moves.same (hmoves : Moves d a d' b) (h : Ready d a) {n : ℕ}
    (hother : ∀ c ∈ a.command, c.number ≠ n) (hn : n ∉ d.log.timedOut) : Device.Same d d' n := by
  have hs := h.sound
  cases hmoves with
  | allocate c message hfree => exact allocate_same hfree (hother c rfl)
  | add c message queue hadd => exact add_same hadd (hother c rfl)
  | reclaim c message elapsedUs chain length queue hget hne =>
      obtain ⟨-, -, hchain, -⟩ := hs.get hget
      obtain ⟨m, hm, hcall⟩ := hs.onQueue chain hchain
      have hvictim := hs.victim h.owns.1 (h.polled rfl) hchain hne
      have hcn : chain.call ≠ n := fun heq => hn (heq ▸ hvictim)
      have hfree := freeControlMessage_same (d := { d with
        queue := queue }) hm (by rw [hcall]; exact hcn)
      exact (get_same hget hcn).trans (hfree.trans (Device.same_of_eq rfl rfl))
  | finish c message elapsedUs chain length queue hget heq =>
      obtain ⟨-, -, hchain, -⟩ := hs.get hget
      obtain ⟨m, hm, hcall⟩ := hs.onQueue chain hchain
      obtain ⟨⟨m', hm', hcall', -⟩, -⟩ := h.owns
      rw [heq, hm'] at hm
      obtain rfl := Option.some.inj hm
      have hcn : m'.call ≠ n := by
        rw [hcall']
        exact hother c rfl
      have hfree := freeControlMessage_same (d := { d with
        queue := queue }) hm' hcn
      exact (get_same hget (hcall ▸ hcn)).trans (hfree.trans (Device.same_of_eq rfl rfl))
  | discard c message status =>
      obtain ⟨⟨m, hm, hcall, -⟩, -⟩ := h.owns
      have hfree := freeControlMessage_same hm (by rw [hcall]; exact hother c rfl)
      exact hfree.trans (Device.same_of_eq rfl rfl)
  | _ => exact Device.same_of_eq rfl rfl

/-- What a step adds to the lists of freed messages and of calls that timed out. -/
structure Logged (d d' : Device) (a : Place) : Prop where
  nextCall : d'.nextCall = d.nextCall
  called : d'.log.called = d.log.called
  freed : ∀ n ∈ d'.log.freed,
    n ∈ d.log.freed ∨ n ∈ d.log.timedOut ∨ ∃ c ∈ a.command, c.number = n
  timedOut : ∀ n ∈ d'.log.timedOut, n ∈ d.log.timedOut ∨ ∃ c ∈ a.command, c.number = n
  kept : d.log.timedOut ⊆ d'.log.timedOut

theorem logged_of_eq (hnext : d'.nextCall = d.nextCall) (hcalled : d'.log.called = d.log.called)
    (hfreed : d'.log.freed = d.log.freed) (htimed : d'.log.timedOut = d.log.timedOut) :
    Logged d d' a := by
  refine ⟨hnext, hcalled, fun n hn => Or.inl ?_, fun n hn => Or.inl ?_, ?_⟩
  · rwa [hfreed] at hn
  · rwa [htimed] at hn
  · rw [htimed]
    exact List.Subset.refl _

theorem logged_free {call : ℕ} (hnext : d'.nextCall = d.nextCall)
    (hcalled : d'.log.called = d.log.called) (hfreed : d'.log.freed = d.log.freed ++ [call])
    (htimed : d'.log.timedOut = d.log.timedOut)
    (hcall : call ∈ d.log.timedOut ∨ ∃ c ∈ a.command, c.number = call) : Logged d d' a := by
  refine ⟨hnext, hcalled, fun n hn => ?_, fun n hn => Or.inl ?_, ?_⟩
  · rw [hfreed] at hn
    rcases List.mem_append.mp hn with hold | hlast
    · exact Or.inl hold
    · rw [List.mem_singleton.mp hlast]
      exact Or.inr hcall
  · rwa [htimed] at hn
  · rw [htimed]
    exact List.Subset.refl _

theorem Moves.logged (hmoves : Moves d a d' b) (h : Ready d a) : Logged d d' a := by
  have hs := h.sound
  cases hmoves with
  | noBuffers c => exact logged_free rfl rfl rfl rfl (Or.inr ⟨c, rfl, rfl⟩)
  | reclaim c message elapsedUs chain length queue hget hne =>
      obtain ⟨-, -, hchain, -⟩ := hs.get hget
      obtain ⟨m, hm, hcall⟩ := hs.onQueue chain hchain
      have hvictim := hs.victim h.owns.1 (h.polled rfl) hchain hne
      rw [reclaimMessage_eq (d := { d with
        queue := queue }) hm]
      exact logged_free rfl rfl rfl rfl (Or.inl (hcall ▸ hvictim))
  | finish c message elapsedUs chain length queue hget heq =>
      obtain ⟨⟨m, hm, hcall, -⟩, -⟩ := h.owns
      rw [finishMessage_eq (d := { d with
        queue := queue }) hm]
      exact logged_free rfl rfl rfl rfl (Or.inr ⟨c, rfl, hcall.symm⟩)
  | discard c message status =>
      obtain ⟨⟨m, hm, hcall, -⟩, -⟩ := h.owns
      rw [freeControlMessage_eq hm]
      exact logged_free rfl rfl rfl rfl (Or.inr ⟨c, rfl, hcall.symm⟩)
  | timeOut c message elapsedUs =>
      refine ⟨rfl, rfl, fun n hn => Or.inl hn, fun n hn => ?_,
        fun n hn => List.mem_append_left _ hn⟩
      rcases List.mem_append.mp hn with hold | hlast
      · exact Or.inl hold
      · exact Or.inr ⟨c, rfl, (List.mem_singleton.mp hlast).symm⟩
  | _ => exact logged_of_eq rfl rfl rfl rfl

theorem Moves.goesOn (hmoves : Moves d a d' b) (h : Ready d a) :
    b.Owns d' ∧ ∀ c ∈ b.command, c ∈ a.command ∧ d'.InProgress c := by
  have hs := h.sound
  cases hmoves with
  | allocate c message hfree =>
      refine ⟨⟨⟨_, Function.update_self _ _ _, rfl, rfl, List.length_replicate⟩, ?_⟩, ?_⟩
      · intro hmem
        obtain ⟨chain, hchain, hcall⟩ := List.mem_map.mp hmem
        obtain ⟨m, hm, hcall'⟩ := hs.onQueue chain hchain
        exact h.owns chain.message m hm (hcall'.trans hcall)
      · rintro _ ⟨⟩
        have hc := h.inProgress c rfl
        exact ⟨rfl, hc.before, hc.unfreed, hc.waiting, hc.called⟩
  | allocateAgain c => exact ⟨h.owns, fun c hc => ⟨hc, h.inProgress c hc⟩⟩
  | blocked c message => exact ⟨h.owns, fun c hc => ⟨hc, h.inProgress c hc⟩⟩
  | acquire c message hfree =>
      refine ⟨h.owns, ?_⟩
      rintro _ ⟨⟩
      have hc := h.inProgress c rfl
      exact ⟨rfl, hc.before, hc.unfreed, hc.waiting, hc.called⟩
  | full c message =>
      refine ⟨⟨h.owns.1, h.owns.2, by simp⟩, ?_⟩
      rintro _ ⟨⟩
      have hc := h.inProgress c rfl
      exact ⟨rfl, hc.before, hc.unfreed, hc.waiting, hc.called⟩
  | add c message queue hadd =>
      refine ⟨⟨h.owns.1, ?_⟩, ?_⟩
      · exact (BoundedQueue.add_items hadd).mem_iff.mpr List.mem_cons_self
      · rintro _ ⟨⟩
        have hc := h.inProgress c rfl
        exact ⟨rfl, hc.before, hc.unfreed, hc.waiting, hc.called⟩
  | reclaim c message elapsedUs chain length queue hget hne =>
      obtain ⟨-, -, hchain, -⟩ := hs.get hget
      obtain ⟨m, hm, hcall⟩ := hs.onQueue chain hchain
      have hvictim := hs.victim h.owns.1 (h.polled rfl) hchain hne
      have hc := h.inProgress c rfl
      have hcn : chain.call ≠ c.number := fun heq => hc.waiting (heq ▸ hvictim)
      have hfree := freeControlMessage_same (d := { d with
        queue := queue }) hm (by rw [hcall]; exact hcn)
      have hsame : Device.Same d (reclaimMessage { d with
          queue := queue } c chain.message) c.number :=
        (get_same hget hcn).trans (hfree.trans (Device.same_of_eq rfl rfl))
      refine ⟨Place.Owns.frame (a := .poll c message elapsedUs) h.owns ?_, ?_⟩
      · rintro _ ⟨⟩
        exact hsame
      · rintro _ ⟨⟩
        rw [reclaimMessage_eq (d := { d with
          queue := queue }) hm]
        refine ⟨rfl, hc.before, fun hmem => ?_, hc.waiting, hc.called⟩
        rcases List.mem_append.mp hmem with hold | hlast
        · exact hc.unfreed hold
        · exact hcn (hcall.symm.trans (List.mem_singleton.mp hlast).symm)
  | wait c message elapsedUs => exact ⟨h.owns, fun c hc => ⟨hc, h.inProgress c hc⟩⟩
  | _ => exact ⟨trivial, by rintro _ ⟨⟩⟩

/-- Chains on the queue after a step: the polling thread still polls for its own, or has timed
out. -/
private theorem Moves.polled (hmoves : Moves d a d' b) (h : Ready d a) {chain : Chain}
    (hchain : chain ∈ d'.queue.items) :
    (chain ∈ d.queue.items ∧ ∀ c message elapsedUs, a = .poll c message elapsedUs →
      c.number ≠ chain.call) ∨ chain.call ∈ d'.log.timedOut ∨
      ∃ c message elapsedUs, b = .poll c message elapsedUs ∧ c.number = chain.call := by
  have hs := h.sound
  cases hmoves with
  | add c message queue hadd =>
      rcases List.mem_cons.mp ((BoundedQueue.add_items hadd).mem_iff.mp hchain) with rfl | hold
      · exact Or.inr (Or.inr ⟨c, message, 0, rfl, rfl⟩)
      · exact Or.inl ⟨hold, fun _ _ _ hpoll => by cases hpoll⟩
  | reclaim c message elapsedUs other length queue hget hne =>
      obtain ⟨-, -, hother, -⟩ := hs.get hget
      obtain ⟨m, hm, hcall⟩ := hs.onQueue other hother
      rw [reclaimMessage_eq (d := { d with
        queue := queue }) hm] at hchain ⊢
      have hold := (BoundedQueue.get_items hget).mem_iff.mpr (List.mem_cons_of_mem _ hchain)
      by_cases hmine : c.number = chain.call
      · exact Or.inr (Or.inr ⟨c, message, elapsedUs, rfl, hmine⟩)
      · refine Or.inl ⟨hold, fun c' _ _ hpoll => ?_⟩
        obtain ⟨rfl, -, -⟩ := Place.poll.inj hpoll
        exact hmine
  | finish c message elapsedUs other length queue hget heq =>
      obtain ⟨-, hoff, hother, -⟩ := hs.get hget
      obtain ⟨m, hm, hcall⟩ := hs.onQueue other hother
      obtain ⟨⟨m', hm', hcall', -⟩, -⟩ := h.owns
      rw [heq, hm'] at hm
      obtain rfl := Option.some.inj hm
      rw [finishMessage_eq (d := { d with
        queue := queue }) hm'] at hchain
      refine Or.inl ⟨(BoundedQueue.get_items hget).mem_iff.mpr (List.mem_cons_of_mem _ hchain),
        fun c' _ _ hpoll hmine => ?_⟩
      obtain ⟨rfl, -, -⟩ := Place.poll.inj hpoll
      apply hoff
      rw [← hcall, hcall', hmine]
      exact List.mem_map_of_mem hchain
  | wait c message elapsedUs =>
      by_cases hmine : c.number = chain.call
      · exact Or.inr (Or.inr ⟨c, message, _, rfl, hmine⟩)
      · refine Or.inl ⟨hchain, fun c' _ _ hpoll => ?_⟩
        obtain ⟨rfl, -, -⟩ := Place.poll.inj hpoll
        exact hmine
  | timeOut c message elapsedUs =>
      by_cases hmine : c.number = chain.call
      · exact Or.inr (Or.inl (List.mem_append_right _ (by simp [hmine])))
      · refine Or.inl ⟨hchain, fun c' _ _ hpoll => ?_⟩
        obtain ⟨rfl, -, -⟩ := Place.poll.inj hpoll
        exact hmine
  | discard c message status =>
      obtain ⟨⟨m, hm, -⟩, -⟩ := h.owns
      rw [freeControlMessage_eq hm] at hchain
      exact Or.inl ⟨hchain, fun _ _ _ hpoll => by cases hpoll⟩
  | _ => exact Or.inl ⟨hchain, fun _ _ _ hpoll => by cases hpoll⟩

theorem Device.Booked.return (h : d.Booked) (c : Command) {status : NtStatus}
    (hstatus : status ≠ .success) (response : List Byte) : (d.return c status response).Booked := by
  refine ⟨fun r hr hsuccess => ?_, h.timedOut, h.reclaimed, h.timedOutBefore⟩
  rcases List.mem_append.mp hr with hold | hlast
  · exact h.answered r hold hsuccess
  · rw [List.mem_singleton.mp hlast] at hsuccess
    exact absurd hsuccess hstatus

/-- The message of a call that has not timed out is freed, and its chain, if any, is gone. -/
theorem Device.Booked.free {n : ℕ} (h : d.Booked) (hn : n ∉ d.log.timedOut)
    (queue : BoundedQueue Chain (BitVec 32))
    (hqueue : ∀ call ≠ n, call ∈ d.queue.items.map Chain.call →
      call ∈ queue.items.map Chain.call) : Device.Booked { d with
      queue := queue
      log := { d.log with
        freed := d.log.freed ++ [n] } } := by
  refine ⟨h.answered, fun call hcall => ?_, fun pair hpair => ?_, h.timedOutBefore⟩
  · have hne : call ≠ n := fun heq => hn (heq ▸ hcall)
    refine (h.timedOut call hcall).imp id ?_
    rintro ⟨hon, hunfreed⟩
    refine ⟨hqueue call hne hon, fun hmem => ?_⟩
    rcases List.mem_append.mp hmem with hold | hlast
    · exact hunfreed hold
    · exact hne (List.mem_singleton.mp hlast)
  · obtain ⟨hne, hlate, hfreed⟩ := h.reclaimed pair hpair
    exact ⟨hne, hlate, List.mem_append_left _ hfreed⟩

private theorem get_keeps {chain : Chain} {length : BitVec 32}
    {queue : BoundedQueue Chain (BitVec 32)} (hget : d.queue.get = some ((chain, length), queue))
    {call : ℕ} (hne : call ≠ chain.call) (hmem : call ∈ d.queue.items.map Chain.call) :
    call ∈ queue.items.map Chain.call := by
  rw [((BoundedQueue.get_items hget).map Chain.call).mem_iff, List.map_cons, List.mem_cons] at hmem
  exact hmem.resolve_left hne

theorem Moves.booked (hmoves : Moves d a d' b) (h : Ready d a) : d'.Booked := by
  have hs := h.sound
  have hb := h.booked
  cases hmoves with
  | noQueue c => exact hb.return c (by simp) _
  | noMemory c => exact hb.return c (by simp) _
  | noBuffers c =>
      have hfree := hb.free (h.inProgress c rfl).waiting d.queue (fun _ _ => id)
      exact hfree.return c (by decide : NtStatus.insufficientResources ≠ .success) _
  | add c message queue hadd =>
      refine ⟨hb.answered, fun call hcall => ?_, hb.reclaimed, hb.timedOutBefore⟩
      refine (hb.timedOut call hcall).imp id (And.imp_left fun hmem => ?_)
      rw [((BoundedQueue.add_items hadd).map Chain.call).mem_iff]
      exact List.mem_cons_of_mem _ hmem
  | reclaim c message elapsedUs chain length queue hget hne =>
      obtain ⟨-, -, hchain, -⟩ := hs.get hget
      obtain ⟨m, hm, hcall⟩ := hs.onQueue chain hchain
      have hvictim := hs.victim h.owns.1 (h.polled rfl) hchain hne
      rw [reclaimMessage_eq (d := { d with
        queue := queue }) hm]
      refine ⟨hb.answered, fun call hmem => ?_, fun pair hpair => ?_, hb.timedOutBefore⟩
      · dsimp only
        rw [List.map_append, List.mem_append]
        by_cases heq : call = chain.call
        · left; right
          simp [heq, hcall]
        · refine (hb.timedOut call hmem).imp Or.inl ?_
          rintro ⟨hon, hunfreed⟩
          refine ⟨get_keeps hget heq hon, fun hfreed => ?_⟩
          rcases List.mem_append.mp hfreed with hold | hlast
          · exact hunfreed hold
          · exact heq ((List.mem_singleton.mp hlast).trans hcall)
      · rcases List.mem_append.mp hpair with hold | hlast
        · obtain ⟨hother, hlate, hfreed⟩ := hb.reclaimed pair hold
          exact ⟨hother, hlate, List.mem_append_left _ hfreed⟩
        · rw [List.mem_singleton.mp hlast]
          refine ⟨fun heq => ?_, by rw [hcall]; exact hvictim,
            List.mem_append_right _ (List.mem_singleton_self _)⟩
          have hself : c.number = chain.call := heq.trans hcall
          exact (h.inProgress c rfl).waiting (hself ▸ hvictim)
  | finish c message elapsedUs chain length queue hget heq =>
      obtain ⟨-, -, hchain, hanswer⟩ := hs.get hget
      obtain ⟨m, hm, hcall⟩ := hs.onQueue chain hchain
      obtain ⟨⟨m', hm', hcall', hrequest, hlength⟩, -⟩ := h.owns
      have hc := h.inProgress c rfl
      have hdone := hanswer m hm
      rw [heq, hm'] at hm
      obtain rfl := Option.some.inj hm
      have hfree := hb.free (hcall' ▸ hc.waiting) queue
        fun call hne => get_keeps hget fun h' => hne (h'.trans hcall.symm)
      rw [finishMessage_eq (d := { d with
        queue := queue }) hm']
      refine ⟨fun r hr hsuccess => ?_, hfree.timedOut, hfree.reclaimed, hfree.timedOutBefore⟩
      rcases List.mem_append.mp hr with hold | hlast
      · exact hb.answered r hold hsuccess
      · rw [List.mem_singleton.mp hlast]
        refine ⟨c.request, hc.called, ?_⟩
        rw [hcall', hrequest] at hdone
        rw [← hlength, List.take_length]
        exact hdone
  | timeOut c message elapsedUs =>
      obtain ⟨-, hchain⟩ := h.owns
      have hc := h.inProgress c rfl
      have hreturned := hb.return c (by simp : NtStatus.ioTimeout ≠ .success) []
      refine ⟨hreturned.answered, fun call hcall => ?_, fun pair hpair => ?_, fun call hcall => ?_⟩
      · rcases List.mem_append.mp hcall with hold | hlast
        · exact hb.timedOut call hold
        · rw [List.mem_singleton.mp hlast]
          exact Or.inr ⟨List.mem_map.mpr ⟨_, hchain, rfl⟩, hc.unfreed⟩
      · obtain ⟨hne, hlate, hfreed⟩ := hb.reclaimed pair hpair
        exact ⟨hne, List.mem_append_left _ hlate, hfreed⟩
      · rcases List.mem_append.mp hcall with hold | hlast
        · exact hb.timedOutBefore call hold
        · rw [List.mem_singleton.mp hlast]
          exact hc.before
  | discard c message status =>
      obtain ⟨⟨m, hm, hcall, -⟩, hoff, hstatus⟩ := h.owns
      have hfree := hb.free (hcall ▸ (h.inProgress c rfl).waiting) d.queue
        fun _ _ => id
      rw [freeControlMessage_eq hm]
      have hreturned := hfree.return c hstatus []
      exact ⟨hreturned.answered, hreturned.timedOut, hreturned.reclaimed, hreturned.timedOutBefore⟩
  | _ => exact ⟨hb.answered, hb.timedOut, hb.reclaimed, hb.timedOutBefore⟩

theorem Moves.mutex (hmoves : Moves d a d' b) (h : Ready d a)
    (hlocked : a.locked = true → d.mutex = true) :
    d'.mutex.toNat + a.locked.toNat = d.mutex.toNat + b.locked.toNat := by
  cases hmoves with
  | acquire c message hfree => simp [Place.locked, hfree]
  | full c message => simp [Place.locked, hlocked rfl]
  | reclaim c message elapsedUs chain length queue hget hne =>
      obtain ⟨-, -, hchain, -⟩ := h.sound.get hget
      obtain ⟨m, hm, -⟩ := h.sound.onQueue chain hchain
      rw [reclaimMessage_eq (d := { d with
        queue := queue }) hm]
  | finish c message elapsedUs chain length queue hget heq =>
      obtain ⟨⟨m, hm, -⟩, -⟩ := h.owns
      rw [finishMessage_eq (d := { d with
        queue := queue }) hm]
      simp [Place.locked, hlocked rfl]
  | timeOut c message elapsedUs => simp [Place.locked, hlocked rfl]
  | discard c message status =>
      obtain ⟨⟨m, hm, -⟩, -⟩ := h.owns
      rw [freeControlMessage_eq hm]
      rfl
  | _ => rfl

/-! ## Runs -/

structure World.Kept (w : World) : Prop where
  sound : w.device.Sound
  booked : w.device.Booked
  mutex : w.threads.countP Place.locked = w.device.mutex.toNat
  calls : (w.threads.filterMap fun a => a.command.map Command.number).Nodup
  owns : ∀ a ∈ w.threads, a.Owns w.device
  inProgress : ∀ a ∈ w.threads, ∀ c ∈ a.command, w.device.InProgress c
  polled : ∀ chain ∈ w.device.queue.items, chain.call ∈ w.device.log.timedOut ∨
    ∃ c message elapsedUs, Place.poll c message elapsedUs ∈ w.threads ∧ c.number = chain.call

theorem World.Kept.safe {w : World} (h : w.Kept) : ControlSafety w where
  answered := h.booked.answered
  onQueue := h.sound.onQueue
  noWildFree := h.sound.noWildFree
  freedOnce := h.sound.freed
  timedOut := h.booked.timedOut
  reclaimed := h.booked.reclaimed

theorem World.Kept.mutex_held {w : World} (h : w.Kept) (ha : a ∈ w.threads)
    (hlocked : a.locked = true) : w.device.mutex = true := by
  have hpos : 0 < w.threads.countP Place.locked := List.countP_pos_iff.mpr ⟨a, ha, hlocked⟩
  rw [h.mutex] at hpos
  cases hmutex : w.device.mutex with
  | true => rfl
  | false => simp [hmutex] at hpos

theorem World.Kept.ready {w : World} (h : w.Kept) {t : ℕ} (ha : w.threads[t]? = some a) :
    Ready w.device a := by
  have hmem := List.mem_of_getElem? ha
  refine ⟨h.sound, h.booked, h.owns a hmem, h.inProgress a hmem, fun hlocked chain hchain => ?_⟩
  refine (h.polled chain hchain).imp id ?_
  rintro ⟨c, message, elapsedUs, hpoll, hcall⟩
  have hone : w.threads.countP Place.locked ≤ 1 := by
    rw [h.mutex]
    exact Bool.toNat_le _
  have hsame : w.threads.set t a = w.threads := by
    obtain ⟨hlt, rfl⟩ := List.getElem?_eq_some_iff.mp ha
    exact List.set_getElem_self hlt
  rw [← hsame] at hpoll
  exact ⟨c, message, elapsedUs, (ThreadPool.mem_alone ha hlocked hone hpoll rfl).symm, hcall⟩

theorem World.Kept.others {w : World} (h : w.Kept) {t : ℕ} (ha : w.threads[t]? = some a)
    {other : Place} (hother : other ∈ w.threads.set t b) :
    other = b ∨ other ∈ w.threads ∧
      ∀ c ∈ a.command, ∀ c' ∈ other.command, c.number ≠ c'.number := by
  cases hcommand : a.command with
  | none =>
      refine (ThreadPool.mem_of_mem_move hother).symm.imp id fun hold => ⟨hold, ?_⟩
      rintro c ⟨⟩
  | some c =>
      have hnumber : (fun p : Place => p.command.map Command.number) a = some c.number := by
        simp [hcommand]
      refine (ThreadPool.mem_move_nodup ha h.calls hnumber hother).imp id fun ⟨hold, hne⟩ =>
        ⟨hold, ?_⟩
      rintro _ ⟨⟩ c' hc' heq
      apply hne
      rw [Option.mem_def.mp hc', heq]
      rfl

theorem World.Kept.move {w : World} (h : w.Kept) {t : ℕ} (ha : w.threads[t]? = some a)
    (hmoves : Moves w.device a d' b) : World.Kept ⟨d', w.threads.set t b⟩ := by
  have hmem := List.mem_of_getElem? ha
  have hready := h.ready ha
  have hlogged := hmoves.logged hready
  obtain ⟨howns, hgoes⟩ := hmoves.goesOn hready
  refine ⟨hmoves.sound hready, hmoves.booked hready, ?_, ?_, fun other hother => ?_,
    fun other hother c' hc' => ?_, fun chain hchain => ?_⟩
  · have hcount := ThreadPool.countP_move ha Place.locked b
    have hmutex := hmoves.mutex hready (h.mutex_held hmem)
    rw [h.mutex] at hcount
    dsimp only
    omega
  · cases hb : b.command with
    | none => exact ThreadPool.nodup_move_none ha h.calls (by simp [hb])
    | some c =>
        have hc := (hgoes c hb).1
        dsimp only
        rw [ThreadPool.filterMap_move_eq ha _ (by simp [hb, Option.mem_def.mp hc])]
        exact h.calls
  · rcases h.others ha hother with rfl | ⟨hold, hne⟩
    · exact howns
    · apply (h.owns other hold).frame
      intro c' hc'
      have hwaiting := (h.inProgress other hold c' hc').waiting
      exact hmoves.same hready (fun c hc => hne c hc c' hc') hwaiting
  · rcases h.others ha hother with rfl | ⟨hold, hne⟩
    · exact (hgoes c' hc').2
    · obtain ⟨hbefore, hunfreed, hwaiting, hcalled⟩ := h.inProgress other hold c' hc'
      refine ⟨hlogged.nextCall ▸ hbefore, fun hfreed => ?_, fun htimed => ?_,
        hlogged.called ▸ hcalled⟩
      · rcases hlogged.freed _ hfreed with hbad | hbad | ⟨c, hc, heq⟩
        · exact hunfreed hbad
        · exact hwaiting hbad
        · exact hne c hc c' hc' heq
      · rcases hlogged.timedOut _ htimed with hbad | ⟨c, hc, heq⟩
        · exact hwaiting hbad
        · exact hne c hc c' hc' heq
  · rcases hmoves.polled hready hchain with ⟨hold, hnot⟩ | htimed | ⟨c, message, elapsedUs, rfl, hc⟩
    · rcases h.polled chain hold with htimed | ⟨c, message, elapsedUs, hpoll, hc⟩
      · exact Or.inl (hlogged.kept htimed)
      · rcases ThreadPool.mem_move_of_mem ha hpoll with heq | hstill
        · exact absurd hc (hnot c message elapsedUs heq.symm)
        · exact Or.inr ⟨c, message, elapsedUs, hstill, hc⟩
    · exact Or.inl htimed
    · exact Or.inr ⟨c, message, elapsedUs, ThreadPool.moved_mem ha _, hc⟩

theorem World.Kept.call {w : World} (h : w.Kept) {t : ℕ} (hidle : w.threads[t]? = some .idle)
    (request : List Byte) (responseLength : ℕ) : World.Kept
      ⟨{ w.device with
        nextCall := w.device.nextCall + 1
        log := { w.device.log with
          called := w.device.log.called ++ [(w.device.nextCall, request)] } },
        w.threads.set t (.allocate ⟨w.device.nextCall, request, responseLength⟩)⟩ := by
  have hold : ∀ a ∈ w.threads, ∀ c ∈ a.command, c.number ≠ w.device.nextCall :=
    fun a ha c hc => Nat.ne_of_lt (h.inProgress a ha c hc).before
  have hs := h.sound
  have hb := h.booked
  refine ⟨⟨fun x m hm => ?_, hs.distinct, hs.queued, hs.onQueue, hs.completed, hs.freed,
    fun call hcall => Nat.lt_succ_of_lt (hs.freedBefore call hcall), hs.noWildFree⟩,
    ⟨fun r hr hsuccess => ?_, hb.timedOut, hb.reclaimed,
      fun call hcall => Nat.lt_succ_of_lt (hb.timedOutBefore call hcall)⟩, ?_, ?_,
    fun a ha => ?_, fun a ha c hc => ?_, fun chain hchain => ?_⟩
  · obtain ⟨hlt, hunfreed, hcalled⟩ := hs.heap x m hm
    exact ⟨Nat.lt_succ_of_lt hlt, hunfreed, List.mem_append_left _ hcalled⟩
  · obtain ⟨req, hcalled, hanswered⟩ := hb.answered r hr hsuccess
    exact ⟨req, List.mem_append_left _ hcalled, hanswered⟩
  · have hcount := ThreadPool.countP_move hidle Place.locked
      (.allocate ⟨w.device.nextCall, request, responseLength⟩)
    exact (Nat.add_right_cancel hcount).trans h.mutex
  · have hperm := ThreadPool.filterMap_move hidle (fun a : Place => a.command.map Command.number)
      (.allocate ⟨w.device.nextCall, request, responseLength⟩)
    refine hperm.nodup_iff.mpr (List.nodup_cons.mpr ⟨fun hmem => ?_, h.calls⟩)
    obtain ⟨a, ha, hnumber⟩ := List.mem_filterMap.mp hmem
    obtain ⟨c, hc, heq⟩ := Option.map_eq_some_iff.mp hnumber
    exact hold a ha c hc heq
  · rcases ThreadPool.mem_of_mem_move ha with hmem | rfl
    · exact (h.owns a hmem).frame fun c _ => Device.same_of_eq rfl rfl
    · exact fun x m hm => Nat.ne_of_lt (hs.heap x m hm).1
  · rcases ThreadPool.mem_of_mem_move ha with hmem | rfl
    · obtain ⟨hbefore, hunfreed, hwaiting, hcalled⟩ := h.inProgress a hmem c hc
      exact ⟨Nat.lt_succ_of_lt hbefore, hunfreed, hwaiting, List.mem_append_left _ hcalled⟩
    · obtain rfl := Option.some.inj hc
      refine ⟨Nat.lt_succ_self _, fun hmem => ?_, fun hmem => ?_,
        List.mem_append_right _ (List.mem_singleton_self _)⟩
      · exact absurd (hs.freedBefore _ hmem) (Nat.lt_irrefl _)
      · exact absurd (hb.timedOutBefore _ hmem) (Nat.lt_irrefl _)
  · refine (h.polled chain hchain).imp id ?_
    rintro ⟨c, message, elapsedUs, hpoll, hc⟩
    rcases ThreadPool.mem_move_of_mem hidle hpoll with heq | hstill
    · cases heq
    · exact ⟨c, message, elapsedUs, hstill, hc⟩

theorem World.Kept.complete {w : World} (h : w.Kept) (k : ℕ) (written : List Byte)
    (length : BitVec 32) : World.Kept ⟨w.device.complete k written length, w.threads⟩ := by
  have hsound := h.sound.complete k written length
  have hsame := complete_same h.sound k written length
  have hb := h.booked
  unfold Device.complete at hsound hsame ⊢
  cases hk : w.device.queue.inFlight[k]? with
  | none => exact h
  | some entry =>
      obtain ⟨chain, cost⟩ := entry
      have hflight : chain ∈ w.device.queue.inFlight.map Prod.fst :=
        List.mem_map.mpr ⟨_, List.mem_of_getElem? hk, rfl⟩
      obtain ⟨m, hm, -⟩ := h.sound.onQueue chain (List.mem_append_left _ hflight)
      have hperm := BoundedQueue.complete_items w.device.queue k length
      simp only [hk, hm] at hsound hsame ⊢
      refine ⟨hsound, ⟨fun r hr hsuccess => ?_, fun call hcall => ?_, hb.reclaimed,
        hb.timedOutBefore⟩, h.mutex, h.calls, fun a ha => ?_, fun a ha c hc => ?_,
        fun other hother => ?_⟩
      · obtain ⟨request, hcalled, hanswered⟩ := hb.answered r hr hsuccess
        exact ⟨request, hcalled, List.mem_append_left _ hanswered⟩
      · exact (hb.timedOut call hcall).imp id
          (And.imp_left (hperm.map Chain.call).mem_iff.mpr)
      · exact (h.owns a ha).frame fun c _ => hsame c.number
      · obtain ⟨hbefore, hunfreed, hwaiting, hcalled⟩ := h.inProgress a ha c hc
        exact ⟨hbefore, hunfreed, hwaiting, hcalled⟩
      · exact h.polled other (hperm.mem_iff.mp hother)

theorem World.Kept.step {w : World} (h : w.Kept) (i : Input) : (w.step i).Kept := by
  cases i with
  | call t request responseLength =>
      simp only [World.step]
      split
      · rename_i hidle
        exact h.call hidle request responseLength
      · exact h
  | move t allocation =>
      simp only [World.step]
      cases ha : w.threads[t]? with
      | none => exact h
      | some a => exact h.move ha (stepPlace_moves w.device allocation a)
  | complete k written length => exact h.complete k written length

theorem World.fresh_kept (hasQueue : Bool) (queueSize threadCount : ℕ) :
    (World.fresh hasQueue queueSize threadCount).Kept := by
  have hidle : ∀ a ∈ (World.fresh hasQueue queueSize threadCount).threads, a = .idle :=
    fun a ha => List.eq_of_mem_replicate ha
  refine ⟨?_, ?_, ?_, ?_, fun a ha => ?_, fun a ha => ?_, fun chain hchain => ?_⟩
  · exact ⟨fun x m hm => (by cases hm), fun x y m m' hm => (by cases hm), List.nodup_nil,
      fun chain hchain => absurd hchain List.not_mem_nil,
      fun e he => absurd he List.not_mem_nil, List.nodup_nil,
      fun call hcall => absurd hcall List.not_mem_nil, rfl⟩
  · exact ⟨fun r hr => absurd hr List.not_mem_nil, fun call hcall => absurd hcall List.not_mem_nil,
      fun pair hpair => absurd hpair List.not_mem_nil,
      fun call hcall => absurd hcall List.not_mem_nil⟩
  · simp [World.fresh, List.countP_replicate, Place.locked]
  · have hnone : (World.fresh hasQueue queueSize threadCount).threads.filterMap
        (fun a : Place => a.command.map Command.number) = [] := by
      rw [List.filterMap_eq_nil_iff]
      intro a ha
      rw [hidle a ha]
      rfl
    rw [hnone]
    exact List.nodup_nil
  · rw [hidle a ha]
    trivial
  · rw [hidle a ha]
    rintro c ⟨⟩
  · exact absurd hchain List.not_mem_nil

/-- Whatever the order of the calls, the completions and the timeouts, control messages are answered
by their own responses, and their memory is freed once and never under the device. -/
theorem run_controlSafety (hasQueue : Bool) (queueSize threadCount : ℕ) (inputs : List Input) :
    ControlSafety (run World.step (World.fresh hasQueue queueSize threadCount) inputs) := by
  have hkept : (run World.step (World.fresh hasQueue queueSize threadCount) inputs).Kept :=
    run_invariant (P := World.Kept) (fun _ i h => h.step i) inputs
      (World.fresh_kept hasQueue queueSize threadCount)
  exact hkept.safe

end Viosnd.Control
