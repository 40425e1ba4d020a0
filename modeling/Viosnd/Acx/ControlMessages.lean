import Viosnd.Control.Safety

/-!
# Control messages of the ACX driver

`ViosndControlCommand` of the ACX driver: the call that times out frees its message, wherever the
message is, and a call drops what it gets from the queue for other calls. Messages, the control
virtqueue and `ControlLock`, here the mutex of the device, are those of `Viosnd.Control`.
-/

namespace Viosnd.AcxControl

open StepRun

open Control (Device Message Chain Command Allocation Input freeControlMessage messageDescriptors)

/-- Where a thread is in `ViosndControlCommand`. -/
inductive Place where
  | idle
  | allocate (c : Command)
  /-- The message is filled in: `ControlLock` is acquired next. -/
  | acquire (c : Command) (message : ℕ)
  | add (c : Command) (message : ℕ)
  | poll (c : Command) (message : ℕ) (elapsedUs : ℕ)
  /-- `ControlLock` is released and the message is freed next. -/
  | discard (c : Command) (message : ℕ) (status : NtStatus) (response : List Byte)

def pollDelayUs : ℕ := 1000
def pollTimeoutUs : ℕ := 1000 * 1000

def allocateMessage (d : Device) (c : Command) : Allocation → Device × Place
  | .none => (d.return c .insufficientResources [], .idle)
  | .messageOnly =>
      -- the message is freed again with the buffer it got
      (({ d with
        log := { d.log with
          freed := d.log.freed ++ [c.number] } }).return c .insufficientResources [], .idle)
  | .all message =>
      if d.heap message = none then
        ({ d with
          heap := Function.update d.heap message
            (some ⟨c.number, c.request, List.replicate c.responseLength 0⟩) }, .acquire c message)
      else (d, .allocate c)

/-- `virtqueue_add_buf` and the kick. -/
def addMessage (d : Device) (c : Command) (message : ℕ) : Device × Place :=
  match d.queue.add ⟨message, c.number⟩ messageDescriptors with
  | none =>
      ({ d with
        mutex := false }, .discard c message .deviceBusy [])
  | some queue =>
      ({ d with
        queue := queue }, .poll c message 0)

/-- The loop is left and `ControlLock` is released. -/
def leave (d : Device) (c : Command) (message : ℕ) (status : NtStatus) (response : List Byte) :
    Device × Place :=
  ({ d with
    mutex := false }, .discard c message status response)

/-- A buffer other than the message of the call is dropped; the call waits or gives up. -/
def waitMessage (d : Device) (c : Command) (message elapsedUs : ℕ) : Device × Place :=
  if pollTimeoutUs ≤ elapsedUs then
    leave { d with
      log := { d.log with
        timedOut := d.log.timedOut ++ [c.number] } } c message .ioTimeout []
  else (d, .poll c message (elapsedUs + pollDelayUs))

def pollMessage (d : Device) (c : Command) (message elapsedUs : ℕ) : Device × Place :=
  match d.queue.get with
  | none => waitMessage d c message elapsedUs
  | some ((chain, _), queue) =>
      let d := { d with
        queue := queue }
      if chain.message = message then
        let response := ((d.heap message).map Message.response).getD []
        leave d c message .success (response.take c.responseLength)
      else waitMessage d c message elapsedUs

/-- One step of a thread; `allocation` matters while it allocates. -/
def stepPlace (d : Device) (allocation : Allocation) : Place → Device × Place
  | .idle => (d, .idle)
  | .allocate c =>
      if d.hasQueue = false then (d.return c .deviceNotReady [], .idle)
      else allocateMessage d c allocation
  | .acquire c message =>
      if d.mutex then (d, .acquire c message)
      else
        ({ d with
          mutex := true }, .add c message)
  | .add c message => addMessage d c message
  | .poll c message elapsedUs => pollMessage d c message elapsedUs
  | .discard c message status response =>
      ((freeControlMessage d message).return c status response, .idle)

structure World where
  device : Device
  threads : List Place

def World.step (w : World) : Input → World
  | .call thread request responseLength =>
      match w.threads[thread]? with
      | some .idle =>
          ⟨{ w.device with
            nextCall := w.device.nextCall + 1
            log := { w.device.log with
              called := w.device.log.called ++ [(w.device.nextCall, request)] } },
            w.threads.set thread (.allocate ⟨w.device.nextCall, request, responseLength⟩)⟩
      | _ => w
  | .move thread allocation =>
      match w.threads[thread]? with
      | none => w
      | some place =>
          let (device, next) := stepPlace w.device allocation place
          ⟨device, w.threads.set thread next⟩
  | .complete k written length => { w with
      device := w.device.complete k written length }

/-- A control queue of the given size and threads outside of the driver. -/
def World.fresh (hasQueue : Bool) (queueSize threadCount : ℕ) : World where
  device := (Control.World.fresh hasQueue queueSize threadCount).device
  threads := List.replicate threadCount .idle

/-! ## What the protocol is for -/

structure ControlSafety (w : World) : Prop where
  /-- A successful call copied what the device wrote for the request of the call. -/
  answered : ∀ r ∈ w.device.log.returned, r.status = .success →
    ∃ request, (r.call, request) ∈ w.device.log.called ∧
      (r.call, request, r.response) ∈ w.device.log.answered
  /-- A chain on the queue has its memory. -/
  onQueue : ∀ chain ∈ w.device.queue.items,
    ∃ m, w.device.heap chain.message = some m ∧ m.call = chain.call
  /-- What a polling call compares tokens with is its own message. -/
  compared : ∀ c message elapsedUs, Place.poll c message elapsedUs ∈ w.threads →
    ∃ m, w.device.heap message = some m ∧ m.call = c.number
  noWildFree : w.device.log.wildFrees = 0
  freedOnce : w.device.log.freed.Nodup
  /-- A call that got its memory has freed it when it returns. -/
  freed : ∀ r ∈ w.device.log.returned, r.status ≠ .deviceNotReady →
    r.status ≠ .insufficientResources → r.call ∈ w.device.log.freed

def World.lastPoll (w : World) : Input → Bool
  | .move thread _ =>
      match w.threads[thread]? with
      | some (.poll _ _ elapsedUs) => decide (pollTimeoutUs ≤ elapsedUs)
      | _ => false
  | _ => false

/-- A call that has polled for a second finds a completed chain. -/
def InTime (w : World) (i : Input) : Prop :=
  w.lastPoll i = true → w.device.queue.completed.isEmpty = false

instance (w : World) (i : Input) : Decidable (InTime w i) :=
  inferInstanceAs (Decidable (_ → _))

end Viosnd.AcxControl
