import Viosnd.Basic
import Viosnd.Lib.BoundedQueue
import Viosnd.Lib.Runs
import Viosnd.Lib.ThreadPool

/-!
# Control messages

`ViosndControlCommand` of the WaveRT driver: any number of threads allocate a message, put it on the
control virtqueue and poll for it, under `ControlQueueMutex`. A message whose call times out stays
on the queue; the call that finds it completed frees it. Memory is a map from addresses, so that an
address freed and allocated again is told apart from the message it used to be.
-/

namespace Viosnd.Control

/-- `VIOSND_CONTROL_MESSAGE` with what `RequestVa` and `ResponseVa` point to, and the call it was
allocated for. -/
structure Message where
  call : ℕ
  request : List Byte
  response : List Byte

/-- A chain on the control virtqueue: its token, the address of a message, and the call that added
it. -/
structure Chain where
  message : ℕ
  call : ℕ
  deriving DecidableEq, Repr

structure Command where
  number : ℕ
  request : List Byte
  responseLength : ℕ
  deriving DecidableEq, Repr

structure Return where
  call : ℕ
  status : NtStatus
  response : List Byte

/-- What happened so far, oldest first. Calls are known by their numbers. -/
structure Log where
  called : List (ℕ × List Byte)
  /-- The request the device read from a chain, and the response buffer when it was completed. -/
  answered : List (ℕ × List Byte × List Byte)
  returned : List Return
  freed : List ℕ
  timedOut : List ℕ
  /-- The call that found a completed message of another call, and the other call. -/
  reclaimed : List (ℕ × ℕ)
  /-- How often memory was freed that was not allocated. -/
  wildFrees : ℕ

structure Device where
  /-- `Queues[VIRTIO_SND_VQ_CONTROL] != NULL`. -/
  hasQueue : Bool
  queue : BoundedQueue Chain (BitVec 32)
  /-- `ControlQueueMutex` is held. -/
  mutex : Bool
  heap : ℕ → Option Message
  nextCall : ℕ
  log : Log

/-- Where a thread is in `ViosndControlCommand`. -/
inductive Place where
  | idle
  | allocate (c : Command)
  /-- The message is filled in: the mutex is acquired next. -/
  | acquire (c : Command) (message : ℕ)
  | add (c : Command) (message : ℕ)
  | poll (c : Command) (message : ℕ) (elapsedUs : ℕ)
  /-- The mutex is released and the message, never queued, is freed next. -/
  | discard (c : Command) (message : ℕ) (status : NtStatus)

def controlPollDelayUs : ℕ := 1000
def controlTimeoutMs : ℕ := 5000

/-- Descriptors of a message: one for the request, one for the response. -/
def messageDescriptors : ℕ := 2

/-- `ViosndFreeControlMessage`. -/
def freeControlMessage (d : Device) (message : ℕ) : Device :=
  match d.heap message with
  | none => { d with
      log := { d.log with
        wildFrees := d.log.wildFrees + 1 } }
  | some m => { d with
      heap := Function.update d.heap message none
      log := { d.log with
        freed := d.log.freed ++ [m.call] } }

def Device.return (d : Device) (c : Command) (status : NtStatus) (response : List Byte) : Device :=
  { d with
    log := { d.log with
      returned := d.log.returned ++ [⟨c.number, status, response⟩] } }

/-- What the allocations of a call come to: the address of the message, and whether both DMA
buffers could be had. -/
inductive Allocation where
  | none
  | messageOnly
  | all (message : ℕ)

def allocateMessage (d : Device) (c : Command) : Allocation → Device × Place
  | .none => (d.return c .insufficientResources [], .idle)
  | .messageOnly =>
      -- the message is freed again with the buffer it got
      (({ d with
        log := { d.log with
          freed := d.log.freed ++ [c.number] } }).return c .insufficientResources [], .idle)
  | .all message =>
      if d.heap message = Option.none then
        ({ d with
          heap := Function.update d.heap message
            (some ⟨c.number, c.request, List.replicate c.responseLength 0⟩) }, .acquire c message)
      else (d, .allocate c)

/-- `virtqueue_add_buf` and the kick. -/
def addMessage (d : Device) (c : Command) (message : ℕ) : Device × Place :=
  match d.queue.add ⟨message, c.number⟩ messageDescriptors with
  | none =>
      ({ d with
        mutex := false }, .discard c message .deviceBusy)
  | some queue =>
      ({ d with
        queue := queue }, .poll c message 0)

/-- The buffer is the message of the call: its response is copied, it is freed, and the mutex is
released. -/
def finishMessage (d : Device) (c : Command) (message : ℕ) : Device :=
  let response := ((d.heap message).map Message.response).getD []
  let d := (freeControlMessage d message).return c .success (response.take c.responseLength)
  { d with
    mutex := false }

/-- The buffer is a message of another call, which has timed out. -/
def reclaimMessage (d : Device) (c : Command) (completed : ℕ) : Device :=
  let owner := ((d.heap completed).map Message.call).getD 0
  let d := freeControlMessage d completed
  { d with
    log := { d.log with
      reclaimed := d.log.reclaimed ++ [(c.number, owner)] } }

def pollMessage (d : Device) (c : Command) (message elapsedUs : ℕ) : Device × Place :=
  match d.queue.get with
  | some ((chain, _), queue) =>
      let d := { d with
        queue := queue }
      if chain.message ≠ message then
        (reclaimMessage d c chain.message, .poll c message elapsedUs)
      else (finishMessage d c message, .idle)
  | none =>
      let elapsedUs := elapsedUs + controlPollDelayUs
      if elapsedUs < controlTimeoutMs * 1000 then (d, .poll c message elapsedUs)
      else
        let d := d.return c .ioTimeout []
        ({ d with
          mutex := false
          log := { d.log with
            timedOut := d.log.timedOut ++ [c.number] } }, .idle)

/-- One step of a thread; `allocation` matters while it allocates. -/
def stepPlace (d : Device) (allocation : Allocation) : Place → Device × Place
  | .idle => (d, .idle)
  | .allocate c =>
      if d.hasQueue = false then (d.return c .deviceNotReady [], .idle)
      else allocateMessage d c allocation
  | .acquire c message =>
      if d.mutex then (d, .acquire c message)
      else
        ({ d with
          mutex := true }, .add c message)
  | .add c message => addMessage d c message
  | .poll c message elapsedUs => pollMessage d c message elapsedUs
  | .discard c message status =>
      ((freeControlMessage d message).return c status [], .idle)

/-- The device reads the request of the `k`-th chain in flight, writes its response and completes
the chain. -/
def Device.complete (d : Device) (k : ℕ) (written : List Byte) (length : BitVec 32) : Device :=
  match d.queue.inFlight[k]? with
  | none => d
  | some (chain, _) =>
      let queue := d.queue.complete k length
      match d.heap chain.message with
      | none => { d with
          queue := queue }
      | some m =>
          let response := written.take m.response.length ++ m.response.drop written.length
          { d with
            queue := queue
            heap := Function.update d.heap chain.message (some { m with
              response := response })
            log := { d.log with
              answered := d.log.answered ++ [(chain.call, m.request, response)] } }

/-! ## Steps by kind -/

/-- The steps of a thread, with the branch conditions they are taken under. -/
inductive Moves (d : Device) : Place → Device → Place → Prop where
  | rest : Moves d .idle d .idle
  | noQueue (c : Command) : Moves d (.allocate c) (d.return c .deviceNotReady []) .idle
  | noMemory (c : Command) : Moves d (.allocate c) (d.return c .insufficientResources []) .idle
  | noBuffers (c : Command) : Moves d (.allocate c)
      (({ d with
        log := { d.log with
          freed := d.log.freed ++ [c.number] } }).return c .insufficientResources []) .idle
  | allocate (c : Command) (message : ℕ) : d.heap message = none → Moves d (.allocate c)
      { d with
        heap := Function.update d.heap message
          (some ⟨c.number, c.request, List.replicate c.responseLength 0⟩) }
      (.acquire c message)
  | allocateAgain (c : Command) : Moves d (.allocate c) d (.allocate c)
  | blocked (c : Command) (message : ℕ) : Moves d (.acquire c message) d (.acquire c message)
  | acquire (c : Command) (message : ℕ) : d.mutex = false → Moves d (.acquire c message)
      { d with
        mutex := true }
      (.add c message)
  | full (c : Command) (message : ℕ) : Moves d (.add c message)
      { d with
        mutex := false }
      (.discard c message .deviceBusy)
  | add (c : Command) (message : ℕ) (queue : BoundedQueue Chain (BitVec 32)) :
      d.queue.add ⟨message, c.number⟩ messageDescriptors = some queue → Moves d (.add c message)
      { d with
        queue := queue }
      (.poll c message 0)
  | reclaim (c : Command) (message elapsedUs : ℕ) (chain : Chain) (length : BitVec 32)
      (queue : BoundedQueue Chain (BitVec 32)) : d.queue.get = some ((chain, length), queue) →
      chain.message ≠ message → Moves d (.poll c message elapsedUs)
      (reclaimMessage { d with
        queue := queue } c chain.message)
      (.poll c message elapsedUs)
  | finish (c : Command) (message elapsedUs : ℕ) (chain : Chain) (length : BitVec 32)
      (queue : BoundedQueue Chain (BitVec 32)) : d.queue.get = some ((chain, length), queue) →
      chain.message = message → Moves d (.poll c message elapsedUs)
      (finishMessage { d with
        queue := queue } c message)
      .idle
  | wait (c : Command) (message elapsedUs : ℕ) : Moves d (.poll c message elapsedUs) d
      (.poll c message (elapsedUs + controlPollDelayUs))
  | timeOut (c : Command) (message elapsedUs : ℕ) : Moves d (.poll c message elapsedUs)
      { d.return c .ioTimeout [] with
        mutex := false
        log := { (d.return c .ioTimeout []).log with
          timedOut := (d.return c .ioTimeout []).log.timedOut ++ [c.number] } }
      .idle
  | discard (c : Command) (message : ℕ) (status : NtStatus) : Moves d (.discard c message status)
      ((freeControlMessage d message).return c status []) .idle

theorem stepPlace_moves (d : Device) (allocation : Allocation) (a : Place) :
    Moves d a (stepPlace d allocation a).1 (stepPlace d allocation a).2 := by
  cases a with
  | idle => exact Moves.rest
  | allocate c =>
      simp only [stepPlace]
      split
      · exact Moves.noQueue c
      · cases allocation with
        | none => exact Moves.noMemory c
        | messageOnly => exact Moves.noBuffers c
        | all message =>
            simp only [allocateMessage]
            split
            · exact Moves.allocate c message (by assumption)
            · exact Moves.allocateAgain c
  | acquire c message =>
      simp only [stepPlace]
      cases hmutex : d.mutex with
      | true => exact Moves.blocked c message
      | false => exact Moves.acquire c message hmutex
  | add c message =>
      simp only [stepPlace, addMessage]
      cases hadd : d.queue.add ⟨message, c.number⟩ messageDescriptors with
      | none => exact Moves.full c message
      | some queue => exact Moves.add c message queue hadd
  | poll c message elapsedUs =>
      simp only [stepPlace, pollMessage]
      cases hget : d.queue.get with
      | none =>
          dsimp only
          split
          · exact Moves.wait c message elapsedUs
          · exact Moves.timeOut c message elapsedUs
      | some got =>
          obtain ⟨⟨chain, length⟩, queue⟩ := got
          dsimp only
          split
          · exact Moves.reclaim c message elapsedUs chain length queue hget (by assumption)
          · exact Moves.finish c message elapsedUs chain length queue hget (by simp_all)
  | discard c message status => exact Moves.discard c message status

/-! ## Runs -/

structure World where
  device : Device
  threads : List Place

inductive Input where
  /-- The thread calls `ViosndControlCommand`. -/
  | call (thread : ℕ) (request : List Byte) (responseLength : ℕ)
  | move (thread : ℕ) (allocation : Allocation)
  | complete (k : ℕ) (written : List Byte) (length : BitVec 32)

def World.step (w : World) : Input → World
  | .call thread request responseLength =>
      match w.threads[thread]? with
      | some .idle =>
          ⟨{ w.device with
            nextCall := w.device.nextCall + 1
            log := { w.device.log with
              called := w.device.log.called ++ [(w.device.nextCall, request)] } },
            w.threads.set thread (.allocate ⟨w.device.nextCall, request, responseLength⟩)⟩
      | _ => w
  | .move thread allocation =>
      match w.threads[thread]? with
      | none => w
      | some place =>
          let (device, next) := stepPlace w.device allocation place
          ⟨device, w.threads.set thread next⟩
  | .complete k written length => { w with
      device := w.device.complete k written length }

/-- A control queue of the given size and threads outside of the driver. -/
def World.fresh (hasQueue : Bool) (queueSize threadCount : ℕ) : World where
  device := {
    hasQueue := hasQueue
    queue := BoundedQueue.new queueSize
    mutex := false
    heap := fun _ => none
    nextCall := 0
    log := ⟨[], [], [], [], [], [], 0⟩ }
  threads := List.replicate threadCount .idle

end Viosnd.Control
