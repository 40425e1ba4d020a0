import Viosnd.Acx.ControlMessages

/-!
# When control messages of the ACX driver are safe

As long as the device answers within the second a call waits, the queue holds the chain of the call
under `ControlLock` at most. A call that gives up frees its message while the device may still write
to it.
-/

namespace Viosnd.AcxControl

open StepRun

open Control (Device Message Chain Command Allocation Input freeControlMessage messageDescriptors
  freeControlMessage_eq heap_update_none)

variable {d d' : Device} {c : Command} {a b : Place} {message : ℕ}

/-! ## Calls in progress -/

def Place.command : Place → Option Command
  | .idle => none
  | .allocate c => some c
  | .acquire c _ => some c
  | .add c _ => some c
  | .poll c _ _ => some c
  | .discard c _ _ _ => some c

/-- The thread holds `ControlLock`. -/
def Place.locked : Place → Bool
  | .add _ _ => true
  | .poll _ _ _ => true
  | _ => false

/-- What a call in progress owns. -/
def Place.Owns (d : Device) : Place → Prop
  | .idle => True
  | .allocate c => ∀ x m, d.heap x = some m → m.call ≠ c.number
  | .acquire c message => d.Has c message ∧ c.number ∉ d.queue.items.map Chain.call
  | .add c message => d.Has c message ∧ c.number ∉ d.queue.items.map Chain.call
  | .poll c message _ => d.Has c message ∧ ⟨message, c.number⟩ ∈ d.queue.items
  | .discard c message status response => d.Has c message ∧
      c.number ∉ d.queue.items.map Chain.call ∧
      (status = .success → (c.number, c.request, response) ∈ d.log.answered)

theorem Place.Owns.frame (h : a.Owns d)
    (hsame : ∀ c ∈ a.command, Device.Same d d' c.number)
    (hanswered : d.log.answered ⊆ d'.log.answered) : a.Owns d' := by
  cases a with
  | idle => trivial
  | allocate c =>
      intro x m' hm' hcall
      obtain ⟨m, hm, hcall'⟩ := (hsame c rfl).back x m' hm' hcall
      exact h x m hm hcall'
  | acquire c message => exact ⟨(hsame c rfl).has h.1, (hsame c rfl).off h.2⟩
  | add c message => exact ⟨(hsame c rfl).has h.1, (hsame c rfl).off h.2⟩
  | poll c message elapsedUs => exact ⟨(hsame c rfl).has h.1, ((hsame c rfl).queue message).mpr h.2⟩
  | discard c message status response =>
      exact ⟨(hsame c rfl).has h.1, (hsame c rfl).off h.2.1, fun hs => hanswered (h.2.2 hs)⟩

structure Accounted (d : Device) : Prop where
  answered : ∀ r ∈ d.log.returned, r.status = .success →
    ∃ request, (r.call, request) ∈ d.log.called ∧ (r.call, request, r.response) ∈ d.log.answered
  freed : ∀ r ∈ d.log.returned, r.status ≠ .deviceNotReady → r.status ≠ .insufficientResources →
    r.call ∈ d.log.freed

structure InProgress (d : Device) (c : Command) : Prop where
  before : c.number < d.nextCall
  unfreed : c.number ∉ d.log.freed
  called : (c.number, c.request) ∈ d.log.called

structure Ready (d : Device) (a : Place) : Prop where
  sound : d.Sound
  accounted : Accounted d
  owns : a.Owns d
  inProgress : ∀ c ∈ a.command, InProgress d c
  /-- Nothing else is on the queue. -/
  alone : a.locked = true → ∀ chain ∈ d.queue.items, ∃ c message elapsedUs,
    a = .poll c message elapsedUs ∧ chain = ⟨message, c.number⟩

/-! ## Steps by kind -/

/-- The steps of a thread that finds its response in time. -/
inductive Moves (d : Device) : Place → Device → Place → Prop where
  | stay (a : Place) : Moves d a d a
  | refuse (c : Command) (status : NtStatus) :
      status = .deviceNotReady ∨ status = .insufficientResources →
      Moves d (.allocate c) (d.return c status []) .idle
  | noBuffers (c : Command) : Moves d (.allocate c)
      (({ d with
        log := { d.log with
          freed := d.log.freed ++ [c.number] } }).return c .insufficientResources []) .idle
  | allocate (c : Command) (message : ℕ) : d.heap message = none → Moves d (.allocate c)
      { d with
        heap := Function.update d.heap message
          (some ⟨c.number, c.request, List.replicate c.responseLength 0⟩) }
      (.acquire c message)
  | acquire (c : Command) (message : ℕ) : d.mutex = false → Moves d (.acquire c message)
      { d with
        mutex := true }
      (.add c message)
  | full (c : Command) (message : ℕ) : Moves d (.add c message)
      { d with
        mutex := false }
      (.discard c message .deviceBusy [])
  | add (c : Command) (message : ℕ) (queue : BoundedQueue Chain (BitVec 32)) :
      d.queue.add ⟨message, c.number⟩ messageDescriptors = some queue → Moves d (.add c message)
      { d with
        queue := queue }
      (.poll c message 0)
  | wait (c : Command) (message elapsedUs : ℕ) : Moves d (.poll c message elapsedUs) d
      (.poll c message (elapsedUs + pollDelayUs))
  | finish (c : Command) (message elapsedUs : ℕ) (length : BitVec 32)
      (queue : BoundedQueue Chain (BitVec 32)) (m : Message) :
      d.queue.get = some ((⟨message, c.number⟩, length), queue) → d.heap message = some m →
      Moves d (.poll c message elapsedUs)
      { d with
        queue := queue
        mutex := false }
      (.discard c message .success m.response)
  | discard (c : Command) (message : ℕ) (status : NtStatus) (response : List Byte) :
      Moves d (.discard c message status response)
      ((freeControlMessage d message).return c status response) .idle

/-- A chain a polling call gets is its own. -/
theorem Ready.get {elapsedUs : ℕ} (h : Ready d (.poll c message elapsedUs)) {chain : Chain}
    {length : BitVec 32} {queue : BoundedQueue Chain (BitVec 32)}
    (hget : d.queue.get = some ((chain, length), queue)) : chain = ⟨message, c.number⟩ := by
  have hchain : chain ∈ d.queue.items :=
    (BoundedQueue.get_items hget).mem_iff.mpr List.mem_cons_self
  obtain ⟨_, _, _, hpoll, rfl⟩ := h.alone rfl chain hchain
  obtain ⟨rfl, rfl, rfl⟩ := Place.poll.inj hpoll
  rfl

theorem stepPlace_moves (h : Ready d a) (allocation : Allocation)
    (htime : ∀ c message elapsedUs, a = .poll c message elapsedUs → pollTimeoutUs ≤ elapsedUs →
      d.queue.completed.isEmpty = false) :
    Moves d a (stepPlace d allocation a).1 (stepPlace d allocation a).2 := by
  cases a with
  | idle => exact Moves.stay _
  | allocate c =>
      simp only [stepPlace]
      split
      · exact Moves.refuse c _ (Or.inl rfl)
      · cases allocation with
        | none => exact Moves.refuse c _ (Or.inr rfl)
        | messageOnly => exact Moves.noBuffers c
        | all message =>
            simp only [allocateMessage]
            split
            · exact Moves.allocate c message (by assumption)
            · exact Moves.stay _
  | acquire c message =>
      simp only [stepPlace]
      cases hmutex : d.mutex with
      | true => exact Moves.stay _
      | false => exact Moves.acquire c message hmutex
  | add c message =>
      simp only [stepPlace, addMessage]
      cases hadd : d.queue.add ⟨message, c.number⟩ messageDescriptors with
      | none => exact Moves.full c message
      | some queue => exact Moves.add c message queue hadd
  | poll c message elapsedUs =>
      simp only [stepPlace, pollMessage]
      cases hget : d.queue.get with
      | none =>
          have hnone : d.queue.completed.isEmpty = true := by
            unfold BoundedQueue.get at hget
            split at hget
            · simp [*]
            · cases hget
          have hearly : ¬ pollTimeoutUs ≤ elapsedUs := by
            intro hle
            rw [htime c message elapsedUs rfl hle] at hnone
            cases hnone
          simp only [waitMessage, if_neg hearly]
          exact Moves.wait c message elapsedUs
      | some got =>
          obtain ⟨⟨chain, length⟩, queue⟩ := got
          obtain rfl := h.get hget
          obtain ⟨m, hm, -, -, hlength⟩ := h.owns.1
          simp only [if_true, leave, hm, Option.map_some, Option.getD_some]
          rw [← hlength, List.take_length]
          exact Moves.finish c message elapsedUs length queue m hget hm
  | discard c message status response => exact Moves.discard c message status response

/-! ## What a step keeps -/

theorem Moves.sound (hmoves : Moves d a d' b) (h : Ready d a) : d'.Sound := by
  have hs := h.sound
  cases hmoves with
  | noBuffers c =>
      obtain ⟨hbefore, hunfreed, -⟩ := h.inProgress c rfl
      refine ⟨fun x m hm => ?_, hs.distinct, hs.queued, hs.onQueue, hs.completed, ?_,
        fun call hcall => ?_, hs.noWildFree⟩
      · obtain ⟨hlt, hnot, hcalled⟩ := hs.heap x m hm
        refine ⟨hlt, fun hmem => ?_, hcalled⟩
        rcases List.mem_append.mp hmem with hold | hlast
        · exact hnot hold
        · exact h.owns x m hm (List.mem_singleton.mp hlast)
      · exact List.nodup_append'.mpr ⟨hs.freed, List.nodup_singleton _, by
          simpa [List.disjoint_singleton] using hunfreed⟩
      · rcases List.mem_append.mp hcall with hold | hlast
        · exact hs.freedBefore call hold
        · rw [List.mem_singleton.mp hlast]
          exact hbefore
  | allocate c message hfree =>
      obtain ⟨hbefore, hunfreed, hcalled⟩ := h.inProgress c rfl
      exact hs.allocate hfree _ hbefore hunfreed hcalled h.owns
  | add c message queue hadd =>
      obtain ⟨⟨m, hm, hcall, -, -⟩, hoff⟩ := h.owns
      rw [← hcall] at hoff hadd
      exact hs.add hm hoff hadd
  | finish c message elapsedUs length queue m hget hm =>
      obtain ⟨hs', -⟩ := hs.get hget
      exact ⟨hs'.heap, hs'.distinct, hs'.queued, hs'.onQueue, hs'.completed, hs'.freed,
        hs'.freedBefore, hs'.noWildFree⟩
  | discard c message status response =>
      obtain ⟨⟨m, hm, hcall, -, -⟩, hoff, -⟩ := h.owns
      have hfreed := hs.free hm (by rw [hcall]; exact hoff)
      exact ⟨hfreed.heap, hfreed.distinct, hfreed.queued, hfreed.onQueue, hfreed.completed,
        hfreed.freed, hfreed.freedBefore, hfreed.noWildFree⟩
  | _ => exact ⟨hs.heap, hs.distinct, hs.queued, hs.onQueue, hs.completed, hs.freed,
      hs.freedBefore, hs.noWildFree⟩

theorem Moves.same (hmoves : Moves d a d' b) (h : Ready d a) {n : ℕ}
    (hother : ∀ c ∈ a.command, c.number ≠ n) : Device.Same d d' n := by
  cases hmoves with
  | allocate c message hfree => exact Control.allocate_same hfree (hother c rfl)
  | add c message queue hadd => exact Control.add_same hadd (hother c rfl)
  | finish c message elapsedUs length queue m hget hm =>
      exact (Control.get_same hget (hother c rfl)).trans (Device.same_of_eq rfl rfl)
  | discard c message status response =>
      obtain ⟨⟨m, hm, hcall, -⟩, -⟩ := h.owns
      have hfree := Control.freeControlMessage_same hm (by rw [hcall]; exact hother c rfl)
      exact hfree.trans (Device.same_of_eq rfl rfl)
  | _ => exact Device.same_of_eq rfl rfl

/-- What a step leaves in the log: it frees the message of the call at most. -/
structure Logged (d d' : Device) (a : Place) : Prop where
  nextCall : d'.nextCall = d.nextCall
  called : d'.log.called = d.log.called
  answered : d'.log.answered = d.log.answered
  freed : ∀ n ∈ d'.log.freed, n ∈ d.log.freed ∨ ∃ c ∈ a.command, c.number = n

theorem logged_of_eq (hnext : d'.nextCall = d.nextCall) (hcalled : d'.log.called = d.log.called)
    (hanswered : d'.log.answered = d.log.answered) (hfreed : d'.log.freed = d.log.freed) :
    Logged d d' a := by
  refine ⟨hnext, hcalled, hanswered, fun n hn => Or.inl ?_⟩
  rwa [hfreed] at hn

theorem logged_free (hnext : d'.nextCall = d.nextCall) (hcalled : d'.log.called = d.log.called)
    (hanswered : d'.log.answered = d.log.answered) (hc : c ∈ a.command)
    (hfreed : d'.log.freed = d.log.freed ++ [c.number]) : Logged d d' a := by
  refine ⟨hnext, hcalled, hanswered, fun n hn => ?_⟩
  rw [hfreed] at hn
  rcases List.mem_append.mp hn with hold | hlast
  · exact Or.inl hold
  · exact Or.inr ⟨c, hc, (List.mem_singleton.mp hlast).symm⟩

theorem Moves.logged (hmoves : Moves d a d' b) (h : Ready d a) : Logged d d' a := by
  cases hmoves with
  | noBuffers c => exact logged_free rfl rfl rfl rfl rfl
  | discard c message status response =>
      obtain ⟨⟨m, hm, hcall, -⟩, -⟩ := h.owns
      rw [freeControlMessage_eq hm, hcall]
      exact logged_free rfl rfl rfl rfl rfl
  | _ => exact logged_of_eq rfl rfl rfl rfl

theorem InProgress.keep (h : InProgress d c) (hnext : d'.nextCall = d.nextCall)
    (hcalled : d'.log.called = d.log.called) (hfreed : d'.log.freed = d.log.freed) :
    InProgress d' c := by
  refine ⟨?_, ?_, ?_⟩
  · rw [hnext]
    exact h.before
  · rw [hfreed]
    exact h.unfreed
  · rw [hcalled]
    exact h.called

theorem Moves.goesOn (hmoves : Moves d a d' b) (h : Ready d a) :
    b.Owns d' ∧ ∀ c ∈ b.command, c ∈ a.command ∧ InProgress d' c := by
  have hs := h.sound
  cases hmoves with
  | stay a => exact ⟨h.owns, fun c hc => ⟨hc, h.inProgress c hc⟩⟩
  | refuse c status hstatus => exact ⟨trivial, by rintro _ ⟨⟩⟩
  | noBuffers c => exact ⟨trivial, by rintro _ ⟨⟩⟩
  | allocate c message hfree =>
      refine ⟨⟨⟨_, Function.update_self _ _ _, rfl, rfl, List.length_replicate⟩, ?_⟩, ?_⟩
      · intro hmem
        obtain ⟨chain, hchain, hcall⟩ := List.mem_map.mp hmem
        obtain ⟨m, hm, hcall'⟩ := hs.onQueue chain hchain
        exact h.owns chain.message m hm (hcall'.trans hcall)
      · rintro _ ⟨⟩
        exact ⟨rfl, (h.inProgress c rfl).keep rfl rfl rfl⟩
  | acquire c message hfree =>
      refine ⟨h.owns, ?_⟩
      rintro _ ⟨⟩
      exact ⟨rfl, (h.inProgress c rfl).keep rfl rfl rfl⟩
  | full c message =>
      refine ⟨⟨h.owns.1, h.owns.2, by simp⟩, ?_⟩
      rintro _ ⟨⟩
      exact ⟨rfl, (h.inProgress c rfl).keep rfl rfl rfl⟩
  | add c message queue hadd =>
      refine ⟨⟨h.owns.1, ?_⟩, ?_⟩
      · exact (BoundedQueue.add_items hadd).mem_iff.mpr List.mem_cons_self
      · rintro _ ⟨⟩
        exact ⟨rfl, (h.inProgress c rfl).keep rfl rfl rfl⟩
  | wait c message elapsedUs => exact ⟨h.owns, fun c hc => ⟨hc, h.inProgress c hc⟩⟩
  | finish c message elapsedUs length queue m hget hm =>
      obtain ⟨-, hoff, -, hanswer⟩ := hs.get hget
      obtain ⟨m', hm', hcall, hrequest, hlength⟩ := h.owns.1
      have hdone := hanswer m hm
      have hmine := hm
      rw [hm'] at hmine
      obtain rfl := Option.some.inj hmine
      rw [hcall, hrequest] at hdone
      refine ⟨⟨⟨m', hm', hcall, hrequest, hlength⟩, hoff, fun _ => hdone⟩, ?_⟩
      rintro _ ⟨⟩
      exact ⟨rfl, (h.inProgress c rfl).keep rfl rfl rfl⟩
  | discard c message status response => exact ⟨trivial, by rintro _ ⟨⟩⟩

/-- On the queue stays the chain of a call that polls, and of no other. -/
theorem Moves.alone (hmoves : Moves d a d' b) (h : Ready d a) {chain : Chain}
    (hchain : chain ∈ d'.queue.items) :
    (chain ∈ d.queue.items ∧ ∀ c message elapsedUs, a = .poll c message elapsedUs →
      chain ≠ ⟨message, c.number⟩) ∨
      ∃ c message elapsedUs, b = .poll c message elapsedUs ∧ chain = ⟨message, c.number⟩ := by
  have hs := h.sound
  cases hmoves with
  | stay a =>
      by_cases hmine : ∃ c message elapsedUs, a = .poll c message elapsedUs ∧
          chain = ⟨message, c.number⟩
      · exact Or.inr hmine
      · exact Or.inl ⟨hchain, fun c message elapsedUs ha heq =>
          hmine ⟨c, message, elapsedUs, ha, heq⟩⟩
  | add c message queue hadd =>
      rcases List.mem_cons.mp ((BoundedQueue.add_items hadd).mem_iff.mp hchain) with rfl | hold
      · exact Or.inr ⟨c, message, 0, rfl, rfl⟩
      · exact Or.inl ⟨hold, fun _ _ _ hpoll => by cases hpoll⟩
  | wait c message elapsedUs =>
      obtain ⟨_, _, _, hpoll, rfl⟩ := h.alone rfl chain hchain
      obtain ⟨rfl, rfl, rfl⟩ := Place.poll.inj hpoll
      exact Or.inr ⟨c, message, _, rfl, rfl⟩
  | finish c message elapsedUs length queue m hget hm =>
      -- the chain that was got was the only one
      obtain ⟨-, hoff, -, -⟩ := hs.get hget
      have hold := (BoundedQueue.get_items hget).mem_iff.mpr (List.mem_cons_of_mem _ hchain)
      obtain ⟨_, _, _, hpoll, rfl⟩ := h.alone rfl chain hold
      obtain ⟨rfl, rfl, rfl⟩ := Place.poll.inj hpoll
      exact absurd (List.mem_map_of_mem hchain) hoff
  | discard c message status response =>
      obtain ⟨⟨m, hm, -⟩, -⟩ := h.owns
      rw [freeControlMessage_eq hm] at hchain
      exact Or.inl ⟨hchain, fun _ _ _ hpoll => by cases hpoll⟩
  | _ => exact Or.inl ⟨hchain, fun _ _ _ hpoll => by cases hpoll⟩

theorem Accounted.return (h : Accounted d) (c : Command) {status : NtStatus} {response : List Byte}
    (hanswered : status = .success → ∃ request, (c.number, request) ∈ d.log.called ∧
      (c.number, request, response) ∈ d.log.answered)
    (hfreed : status ≠ .deviceNotReady → status ≠ .insufficientResources →
      c.number ∈ d.log.freed) : Accounted (d.return c status response) := by
  refine ⟨fun r hr => ?_, fun r hr => ?_⟩
  · rcases List.mem_append.mp hr with hold | hlast
    · exact h.answered r hold
    · rw [List.mem_singleton.mp hlast]
      exact hanswered
  · rcases List.mem_append.mp hr with hold | hlast
    · exact h.freed r hold
    · rw [List.mem_singleton.mp hlast]
      exact hfreed

theorem Accounted.free (h : Accounted d) (heap : ℕ → Option Message) (n : ℕ) :
    Accounted { d with
      heap := heap
      log := { d.log with
        freed := d.log.freed ++ [n] } } :=
  ⟨h.answered, fun r hr hready hresources =>
    List.mem_append_left _ (h.freed r hr hready hresources)⟩

theorem Moves.accounted (hmoves : Moves d a d' b) (h : Ready d a) : Accounted d' := by
  have hd := h.accounted
  cases hmoves with
  | refuse c status hstatus =>
      refine hd.return c (fun hsuccess => ?_) fun hready hresources => ?_
      · rcases hstatus with rfl | rfl
        · cases hsuccess
        · cases hsuccess
      · exact absurd hresources (not_not.mpr (hstatus.resolve_left hready))
  | noBuffers c => exact (hd.free d.heap c.number).return c (by simp) (by simp)
  | discard c message status response =>
      obtain ⟨⟨m, hm, hcall, -⟩, -, hanswered⟩ := h.owns
      rw [freeControlMessage_eq hm, hcall]
      refine (hd.free _ c.number).return c (fun hsuccess => ?_) fun _ _ => ?_
      · exact ⟨c.request, (h.inProgress c rfl).called, hanswered hsuccess⟩
      · exact List.mem_append_right _ (List.mem_singleton_self _)
  | _ => exact ⟨hd.answered, hd.freed⟩

theorem Moves.mutex (hmoves : Moves d a d' b) (h : Ready d a)
    (hlocked : a.locked = true → d.mutex = true) :
    d'.mutex.toNat + a.locked.toNat = d.mutex.toNat + b.locked.toNat := by
  cases hmoves with
  | acquire c message hfree => simp [Place.locked, hfree]
  | full c message => simp [Place.locked, hlocked rfl]
  | finish c message elapsedUs length queue m hget hm => simp [Place.locked, hlocked rfl]
  | discard c message status response =>
      obtain ⟨⟨m, hm, -⟩, -⟩ := h.owns
      rw [freeControlMessage_eq hm]
      rfl
  | _ => rfl

/-! ## Runs -/

structure World.Kept (w : World) : Prop where
  sound : w.device.Sound
  accounted : Accounted w.device
  mutex : w.threads.countP Place.locked = w.device.mutex.toNat
  calls : (w.threads.filterMap fun a => a.command.map Command.number).Nodup
  owns : ∀ a ∈ w.threads, a.Owns w.device
  inProgress : ∀ a ∈ w.threads, ∀ c ∈ a.command, InProgress w.device c
  alone : ∀ chain ∈ w.device.queue.items, ∃ c message elapsedUs,
    Place.poll c message elapsedUs ∈ w.threads ∧ chain = ⟨message, c.number⟩

theorem World.Kept.safe {w : World} (h : w.Kept) : ControlSafety w where
  answered := h.accounted.answered
  onQueue := h.sound.onQueue
  compared c message elapsedUs hpoll := by
    obtain ⟨⟨m, hm, hcall, -⟩, -⟩ := h.owns _ hpoll
    exact ⟨m, hm, hcall⟩
  noWildFree := h.sound.noWildFree
  freedOnce := h.sound.freed
  freed := h.accounted.freed

theorem World.Kept.mutex_held {w : World} (h : w.Kept) (ha : a ∈ w.threads)
    (hlocked : a.locked = true) : w.device.mutex = true := by
  have hpos : 0 < w.threads.countP Place.locked := List.countP_pos_iff.mpr ⟨a, ha, hlocked⟩
  rw [h.mutex] at hpos
  cases hmutex : w.device.mutex with
  | true => rfl
  | false => simp [hmutex] at hpos

theorem World.Kept.ready {w : World} (h : w.Kept) {t : ℕ} (ha : w.threads[t]? = some a) :
    Ready w.device a := by
  have hmem := List.mem_of_getElem? ha
  refine ⟨h.sound, h.accounted, h.owns a hmem, h.inProgress a hmem, fun hlocked chain hchain => ?_⟩
  obtain ⟨c, message, elapsedUs, hpoll, hmine⟩ := h.alone chain hchain
  have hone : w.threads.countP Place.locked ≤ 1 := by
    rw [h.mutex]
    exact Bool.toNat_le _
  have hsame : w.threads.set t a = w.threads := by
    obtain ⟨hlt, rfl⟩ := List.getElem?_eq_some_iff.mp ha
    exact List.set_getElem_self hlt
  rw [← hsame] at hpoll
  exact ⟨c, message, elapsedUs, (ThreadPool.mem_alone ha hlocked hone hpoll rfl).symm, hmine⟩

theorem World.Kept.others {w : World} (h : w.Kept) {t : ℕ} (ha : w.threads[t]? = some a)
    {other : Place} (hother : other ∈ w.threads.set t b) :
    other = b ∨ other ∈ w.threads ∧
      ∀ c ∈ a.command, ∀ c' ∈ other.command, c.number ≠ c'.number := by
  cases hcommand : a.command with
  | none =>
      refine (ThreadPool.mem_of_mem_move hother).symm.imp id fun hold => ⟨hold, ?_⟩
      rintro c ⟨⟩
  | some c =>
      have hnumber : (fun p : Place => p.command.map Command.number) a = some c.number := by
        simp [hcommand]
      refine (ThreadPool.mem_move_nodup ha h.calls hnumber hother).imp id fun ⟨hold, hne⟩ =>
        ⟨hold, ?_⟩
      rintro _ ⟨⟩ c' hc' heq
      apply hne
      rw [Option.mem_def.mp hc', heq]
      rfl

theorem World.Kept.move {w : World} (h : w.Kept) {t : ℕ} (ha : w.threads[t]? = some a)
    (hmoves : Moves w.device a d' b) : World.Kept ⟨d', w.threads.set t b⟩ := by
  have hmem := List.mem_of_getElem? ha
  have hready := h.ready ha
  have hlogged := hmoves.logged hready
  obtain ⟨howns, hgoes⟩ := hmoves.goesOn hready
  refine ⟨hmoves.sound hready, hmoves.accounted hready, ?_, ?_, fun other hother => ?_,
    fun other hother c' hc' => ?_, fun chain hchain => ?_⟩
  · have hcount := ThreadPool.countP_move ha Place.locked b
    have hmutex := hmoves.mutex hready (h.mutex_held hmem)
    rw [h.mutex] at hcount
    dsimp only
    omega
  · cases hb : b.command with
    | none => exact ThreadPool.nodup_move_none ha h.calls (by simp [hb])
    | some c =>
        have hc := (hgoes c hb).1
        dsimp only
        rw [ThreadPool.filterMap_move_eq ha _ (by simp [hb, Option.mem_def.mp hc])]
        exact h.calls
  · rcases h.others ha hother with rfl | ⟨hold, hne⟩
    · exact howns
    · refine (h.owns other hold).frame (fun c' hc' => ?_) ?_
      · exact hmoves.same hready fun c hc => hne c hc c' hc'
      · rw [hlogged.answered]
        exact List.Subset.refl _
  · rcases h.others ha hother with rfl | ⟨hold, hne⟩
    · exact (hgoes c' hc').2
    · obtain ⟨hbefore, hunfreed, hcalled⟩ := h.inProgress other hold c' hc'
      refine ⟨hlogged.nextCall ▸ hbefore, fun hfreed => ?_, hlogged.called ▸ hcalled⟩
      rcases hlogged.freed _ hfreed with hbad | ⟨c, hc, heq⟩
      · exact hunfreed hbad
      · exact hne c hc c' hc' heq
  · rcases hmoves.alone hready hchain with ⟨hold, hnot⟩ | ⟨c, message, elapsedUs, rfl, hmine⟩
    · obtain ⟨c, message, elapsedUs, hpoll, hmine⟩ := h.alone chain hold
      rcases ThreadPool.mem_move_of_mem ha hpoll with heq | hstill
      · exact absurd hmine (hnot c message elapsedUs heq.symm)
      · exact ⟨c, message, elapsedUs, hstill, hmine⟩
    · exact ⟨c, message, elapsedUs, ThreadPool.moved_mem ha _, hmine⟩

theorem World.Kept.call {w : World} (h : w.Kept) {t : ℕ} (hidle : w.threads[t]? = some .idle)
    (request : List Byte) (responseLength : ℕ) : World.Kept
      ⟨{ w.device with
        nextCall := w.device.nextCall + 1
        log := { w.device.log with
          called := w.device.log.called ++ [(w.device.nextCall, request)] } },
        w.threads.set t (.allocate ⟨w.device.nextCall, request, responseLength⟩)⟩ := by
  have hold : ∀ a ∈ w.threads, ∀ c ∈ a.command, c.number ≠ w.device.nextCall :=
    fun a ha c hc => Nat.ne_of_lt (h.inProgress a ha c hc).before
  have hs := h.sound
  have hd := h.accounted
  refine ⟨⟨fun x m hm => ?_, hs.distinct, hs.queued, hs.onQueue, hs.completed, hs.freed,
    fun call hcall => Nat.lt_succ_of_lt (hs.freedBefore call hcall), hs.noWildFree⟩,
    ⟨fun r hr hsuccess => ?_, hd.freed⟩, ?_, ?_, fun a ha => ?_, fun a ha c hc => ?_,
    fun chain hchain => ?_⟩
  · obtain ⟨hlt, hunfreed, hcalled⟩ := hs.heap x m hm
    exact ⟨Nat.lt_succ_of_lt hlt, hunfreed, List.mem_append_left _ hcalled⟩
  · obtain ⟨req, hcalled, hanswered⟩ := hd.answered r hr hsuccess
    exact ⟨req, List.mem_append_left _ hcalled, hanswered⟩
  · have hcount := ThreadPool.countP_move hidle Place.locked
      (.allocate ⟨w.device.nextCall, request, responseLength⟩)
    exact (Nat.add_right_cancel hcount).trans h.mutex
  · have hperm := ThreadPool.filterMap_move hidle (fun a : Place => a.command.map Command.number)
      (.allocate ⟨w.device.nextCall, request, responseLength⟩)
    refine hperm.nodup_iff.mpr (List.nodup_cons.mpr ⟨fun hmem => ?_, h.calls⟩)
    obtain ⟨a, ha, hnumber⟩ := List.mem_filterMap.mp hmem
    obtain ⟨c, hc, heq⟩ := Option.map_eq_some_iff.mp hnumber
    exact hold a ha c hc heq
  · rcases ThreadPool.mem_of_mem_move ha with hmem | rfl
    · exact (h.owns a hmem).frame (fun c _ => Device.same_of_eq rfl rfl) (List.Subset.refl _)
    · exact fun x m hm => Nat.ne_of_lt (hs.heap x m hm).1
  · rcases ThreadPool.mem_of_mem_move ha with hmem | rfl
    · obtain ⟨hbefore, hunfreed, hcalled⟩ := h.inProgress a hmem c hc
      exact ⟨Nat.lt_succ_of_lt hbefore, hunfreed, List.mem_append_left _ hcalled⟩
    · obtain rfl := Option.some.inj hc
      refine ⟨Nat.lt_succ_self _, fun hmem => ?_,
        List.mem_append_right _ (List.mem_singleton_self _)⟩
      exact absurd (hs.freedBefore _ hmem) (Nat.lt_irrefl _)
  · obtain ⟨c, message, elapsedUs, hpoll, hmine⟩ := h.alone chain hchain
    rcases ThreadPool.mem_move_of_mem hidle hpoll with heq | hstill
    · cases heq
    · exact ⟨c, message, elapsedUs, hstill, hmine⟩

theorem World.Kept.complete {w : World} (h : w.Kept) (k : ℕ) (written : List Byte)
    (length : BitVec 32) : World.Kept ⟨w.device.complete k written length, w.threads⟩ := by
  have hsound := h.sound.complete k written length
  have hsame := Control.complete_same h.sound k written length
  unfold Device.complete at hsound hsame ⊢
  cases hk : w.device.queue.inFlight[k]? with
  | none => exact h
  | some entry =>
      obtain ⟨chain, cost⟩ := entry
      have hflight : chain ∈ w.device.queue.inFlight.map Prod.fst :=
        List.mem_map.mpr ⟨_, List.mem_of_getElem? hk, rfl⟩
      obtain ⟨m, hm, -⟩ := h.sound.onQueue chain (List.mem_append_left _ hflight)
      have hperm := BoundedQueue.complete_items w.device.queue k length
      simp only [hk, hm] at hsound hsame ⊢
      refine ⟨hsound, ⟨fun r hr hsuccess => ?_, h.accounted.freed⟩, h.mutex, h.calls,
        fun a ha => ?_, fun a ha c hc => ?_, fun other hother => ?_⟩
      · obtain ⟨request, hcalled, hanswered⟩ := h.accounted.answered r hr hsuccess
        exact ⟨request, hcalled, List.mem_append_left _ hanswered⟩
      · exact (h.owns a ha).frame (fun c _ => hsame c.number) (List.subset_append_left _ _)
      · exact (h.inProgress a ha c hc).keep rfl rfl rfl
      · exact h.alone other (hperm.mem_iff.mp hother)

theorem World.Kept.step {w : World} (h : w.Kept) (i : Input) (hi : InTime w i) :
    (w.step i).Kept := by
  cases i with
  | call t request responseLength =>
      simp only [World.step]
      split
      · rename_i hidle
        exact h.call hidle request responseLength
      · exact h
  | move t allocation =>
      simp only [World.step]
      cases ha : w.threads[t]? with
      | none => exact h
      | some a =>
          refine h.move ha (stepPlace_moves (h.ready ha) allocation ?_)
          rintro c message elapsedUs rfl hle
          exact hi (by simp [World.lastPoll, ha, hle])
  | complete k written length => exact h.complete k written length

theorem World.fresh_kept (hasQueue : Bool) (queueSize threadCount : ℕ) :
    (World.fresh hasQueue queueSize threadCount).Kept := by
  have hidle : ∀ a ∈ (World.fresh hasQueue queueSize threadCount).threads, a = .idle :=
    fun a ha => List.eq_of_mem_replicate ha
  refine ⟨(Control.World.fresh_kept hasQueue queueSize threadCount).sound, ⟨?_, ?_⟩, ?_, ?_,
    fun a ha => ?_, fun a ha => ?_, fun chain hchain => ?_⟩
  · exact fun r hr => absurd hr List.not_mem_nil
  · exact fun r hr => absurd hr List.not_mem_nil
  · simp [World.fresh, Control.World.fresh, List.countP_replicate, Place.locked]
  · have hnone : (World.fresh hasQueue queueSize threadCount).threads.filterMap
        (fun a : Place => a.command.map Command.number) = [] := by
      rw [List.filterMap_eq_nil_iff]
      intro a ha
      rw [hidle a ha]
      rfl
    rw [hnone]
    exact List.nodup_nil
  · rw [hidle a ha]
    trivial
  · rw [hidle a ha]
    rintro c ⟨⟩
  · exact absurd hchain List.not_mem_nil

private theorem World.step_move {w : World} {t : ℕ} (ha : w.threads[t]? = some a)
    (allocation : Allocation) : w.step (.move t allocation) =
      ⟨(stepPlace w.device allocation a).1,
        w.threads.set t (stepPlace w.device allocation a).2⟩ := by
  simp only [World.step, ha]

/-- A call that gives up frees its message with its next step, with the chain on the queue. -/
theorem World.Kept.giveUp {w : World} (h : w.Kept) {t : ℕ} {allocation : Allocation}
    (hlate : ¬ InTime w (.move t allocation)) (next : Allocation) :
    ¬ ControlSafety ((w.step (.move t allocation)).step (.move t next)) := by
  unfold InTime World.lastPoll at hlate
  obtain ⟨hlast, hnone⟩ := Classical.not_imp.mp hlate
  dsimp only at hlast
  split at hlast
  case h_2 => cases hlast
  rename_i c message elapsedUs ha
  have hget : w.device.queue.get = none := by
    unfold BoundedQueue.get
    cases hcompleted : w.device.queue.completed with
    | nil => rfl
    | cons e rest => simp [hcompleted] at hnone
  obtain ⟨⟨m, hm, -⟩, hchain⟩ := h.owns _ (List.mem_of_getElem? ha)
  have hfirst : stepPlace w.device allocation (.poll c message elapsedUs) =
      leave { w.device with
        log := { w.device.log with
          timedOut := w.device.log.timedOut ++ [c.number] } } c message .ioTimeout [] := by
    simp only [stepPlace, pollMessage, hget, waitMessage, if_pos (of_decide_eq_true hlast)]
  have hnext : (w.threads.set t (.discard c message .ioTimeout []))[t]? =
      some (.discard c message .ioTimeout []) :=
    List.getElem?_set_self (List.getElem?_eq_some_iff.mp ha).1
  rw [World.step_move ha, hfirst, World.step_move hnext]
  intro hsafe
  have hon := hsafe.onQueue ⟨message, c.number⟩
  simp only [stepPlace, leave, freeControlMessage, hm, Device.return] at hon
  obtain ⟨m', hm', -⟩ := hon hchain
  rw [Function.update_self] at hm'
  cases hm'

/-- Every run in which the device answers in time is safe, and none is any more once a call has
given up and gone on. -/
theorem run_acxControlSafety (hasQueue : Bool) (queueSize threadCount : ℕ) (inputs : List Input)
    (hguarded : Guarded World.step InTime (World.fresh hasQueue queueSize threadCount) inputs) :
    ControlSafety (run World.step (World.fresh hasQueue queueSize threadCount) inputs) ∧
      ∀ t allocation next,
        ¬ InTime (run World.step (World.fresh hasQueue queueSize threadCount) inputs)
          (.move t allocation) →
        ¬ ControlSafety (run World.step (World.fresh hasQueue queueSize threadCount)
          (inputs ++ [.move t allocation, .move t next])) := by
  have hkept := hguarded.invariant (fun w i (h : w.Kept) hi => h.step i hi)
    (World.fresh_kept hasQueue queueSize threadCount)
  refine ⟨hkept.safe, fun t allocation next hlate => ?_⟩
  rw [run_append]
  exact hkept.giveUp hlate next

/-! ## A device that takes its time -/

private theorem run_waits (c : Command) (message : ℕ) (hnone : d.queue.completed = [])
    (n elapsedUs : ℕ) (hn : elapsedUs + n * pollDelayUs ≤ pollTimeoutUs) :
    run World.step ⟨d, [.poll c message elapsedUs]⟩ (List.replicate n (.move 0 .none)) =
        ⟨d, [.poll c message (elapsedUs + n * pollDelayUs)]⟩ ∧
      Guarded World.step InTime ⟨d, [.poll c message elapsedUs]⟩
        (List.replicate n (.move 0 .none)) := by
  induction n generalizing elapsedUs with
  | zero => simp
  | succ n ih =>
      have hdelay : 0 < pollDelayUs := by decide
      have hget : d.queue.get = none := by
        simp [BoundedQueue.get, hnone]
      have hsucc : (n + 1) * pollDelayUs = n * pollDelayUs + pollDelayUs := Nat.succ_mul _ _
      have hearly : ¬ pollTimeoutUs ≤ elapsedUs := by omega
      have hstep : World.step ⟨d, [.poll c message elapsedUs]⟩ (.move 0 .none) =
          ⟨d, [.poll c message (elapsedUs + pollDelayUs)]⟩ := by
        simp [World.step, stepPlace, pollMessage, hget, waitMessage, hearly]
      obtain ⟨hrun, hguarded⟩ := ih (elapsedUs + pollDelayUs) (by omega)
      rw [List.replicate_succ, run_cons, guarded_cons, hstep, hrun]
      refine ⟨?_, ?_, hguarded⟩
      · rw [hsucc, Nat.add_assoc, Nat.add_comm pollDelayUs]
      · simp [InTime, World.lastPoll, hearly]

/-- A call that has sent its request and polls for the response. -/
def asked : List Input :=
  [.call 0 [1] 2, .move 0 (.all 0), .move 0 .none, .move 0 .none]

/-- The response comes when the second is over, before the last poll. -/
def answeredLate : List Input :=
  asked ++ (List.replicate 1000 (.move 0 .none) ++
    [.complete 0 [7, 8] 2, .move 0 .none, .move 0 .none])

theorem run_acxControlSafety_answered :
    ControlSafety (run World.step (World.fresh true 4 1) answeredLate) := by
  have hasked : Guarded World.step InTime (World.fresh true 4 1) asked := by decide
  obtain ⟨d, hd, hnone⟩ : ∃ d, run World.step (World.fresh true 4 1) asked =
      ⟨d, [.poll ⟨0, [1], 2⟩ 0 0]⟩ ∧ d.queue.completed = [] := ⟨_, rfl, rfl⟩
  obtain ⟨hrun, hwaits⟩ := run_waits ⟨0, [1], 2⟩ 0 hnone 1000 0 (by decide)
  have hlast : Guarded World.step InTime ⟨d, [.poll ⟨0, [1], 2⟩ 0 (0 + 1000 * pollDelayUs)]⟩
      [.complete 0 [7, 8] 2, .move 0 .none, .move 0 .none] := by
    obtain rfl : (run World.step (World.fresh true 4 1) asked).device = d := by rw [hd]
    decide
  have hguarded : Guarded World.step InTime (World.fresh true 4 1) answeredLate := by
    unfold answeredLate
    rw [guarded_append, guarded_append, hd, hrun]
    exact ⟨hasked, hwaits, hlast⟩
  exact (run_acxControlSafety true 4 1 answeredLate hguarded).1

/-- A call whose message the device still has is over after a second. -/
theorem run_acxControlSafety_timeout :
    ¬ ControlSafety (run World.step (World.fresh true 4 1) (asked ++
      List.replicate 1000 (.move 0 .none) ++ [.move 0 .none, .move 0 .none])) := by
  have hstart : (run World.step (World.fresh true 4 1) asked).Kept :=
    Guarded.invariant (fun w i (h : w.Kept) hi => h.step i hi)
      (by decide : Guarded World.step InTime (World.fresh true 4 1) asked)
      (World.fresh_kept true 4 1)
  rw [run_append, run_append]
  obtain ⟨d, hd, hnone⟩ : ∃ d, run World.step (World.fresh true 4 1) asked =
      ⟨d, [.poll ⟨0, [1], 2⟩ 0 0]⟩ ∧ d.queue.completed = [] := ⟨_, rfl, rfl⟩
  rw [hd] at hstart ⊢
  obtain ⟨hrun, hguarded⟩ := run_waits ⟨0, [1], 2⟩ 0 hnone 1000 0 (by decide)
  have hlate := hguarded.invariant (fun w i (h : w.Kept) hi => h.step i hi) hstart
  rw [hrun] at hlate ⊢
  have hlast : ¬ InTime ⟨d, [.poll ⟨0, [1], 2⟩ 0 (0 + 1000 * pollDelayUs)]⟩ (.move 0 .none) := by
    simp [InTime, World.lastPoll, hnone, pollTimeoutUs, pollDelayUs]
  exact hlate.giveUp hlast .none

end Viosnd.AcxControl
