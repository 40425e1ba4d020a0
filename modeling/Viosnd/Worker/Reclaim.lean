import Viosnd.Buffer.Allocation
import Viosnd.Capture.Effects
import Viosnd.Worker.Threads

/-!
# Reclaiming capture buffers while the stream is torn down

`ReclaimCapturePackets` runs in the workers of a capture stream and in `SetState`, and takes turns
with `SetState`, with `FreeAudioBuffer` and with the loss of the RX queue. A pass is cut where
another thread may come between: at the look at the queue, at the computation of the slot, at each
of the two writes and at the counters.
-/

namespace Viosnd.Reclaim

open StepRun Worker
open Capture (PcmIo RxEntry)

/-- What `ReclaimCapturePackets` would do that it must not do. -/
inductive Fault where
  | divideByZero
  | writeToNull
  | writeToFreed
  deriving DecidableEq, Repr

structure Completion where
  entry : RxEntry
  bytesRead : ULONG
  audio : Memory

/-- A completion and the place in `m_Buffer` it goes to. -/
structure Slot where
  completion : Completion
  /-- `m_Buffer` was not `NULL`. -/
  destination : Bool
  offset : ULONG

/-- Where a thread is in `ReclaimCapturePackets`. -/
inductive ReclaimAt where
  | out
  | asking
  | locating (c : Completion)
  | copying (slot : Slot)
  | zeroing (slot : Slot)
  | counting (c : Completion)

/-- The thread has taken a successful completion and not finished writing it. -/
def ReclaimAt.Writes : ReclaimAt → Prop
  | .locating _ | .copying _ | .zeroing _ => True
  | _ => False

structure ReclaimWorld where
  /-- `SetState` and the workers. -/
  threads : World
  /-- The fields of the stream; `threads` says what its thread fields stand for. -/
  data : Capture.World
  /-- The pages behind `m_Buffer` are allocated. -/
  pages : Bool
  /-- `Queues[VIRTIO_SND_VQ_RX] != NULL`. -/
  rxQueue : Bool
  /-- Where each thread is; `none` is the thread that calls `SetState`. -/
  places : Option ℕ → ReclaimAt
  faults : List Fault
  /-- The passes that got no buffer and went on. -/
  spins : ℕ

/-- A capture stream whose buffer was allocated with `allocated` bytes of pages, if at all. -/
def ReclaimWorld.fresh (captureFaulted : Bool) (allocated : Option ULONG) : ReclaimWorld where
  threads := .fresh true captureFaulted
  data := .fresh allocated
  pages := allocated.isSome
  rxQueue := true
  places := fun _ => .out
  faults := []
  spins := 0

/-! ## ReclaimCapturePackets -/

/-- What the RX queue has for a caller; it is asked when there is a queue. -/
inductive Answer where
  | empty
  | failed (entry : RxEntry)
  | completed (c : Completion)

/-- `ViosndReclaimPreparedReadPcm`: the status, the buffer and what a success delivered. -/
def viosndReclaimPreparedReadPcm (rxQueue : Bool) (answer : Answer) :
    NtStatus × Option RxEntry × Option Completion :=
  if rxQueue = false then (.deviceNotReady, none, none)
  else match answer with
    | .empty => (.notFound, none, none)
    | .failed entry => (.ioDeviceError, some entry, none)
    | .completed c => (.success, some c.entry, some c)

/-- The end of a pass that failed: there may be no buffer. -/
def recycleFailed (entry : Option RxEntry) (data : Capture.World) : Capture.World :=
  match entry with
  | some entry => Capture.recycleCaptureIo entry.io (data.note (.failed entry.packetNumber))
  | none => Capture.viosndFreeReadPcmIo none data

def ask (agent : Option ℕ) (answer : Answer) (w : ReclaimWorld) : ReclaimWorld :=
  let r := viosndReclaimPreparedReadPcm w.rxQueue answer
  if r.1 = .notFound then { w with places := Function.update w.places agent .out }
  else
    let data := { w.data with captureInFlight := w.data.captureInFlight - 1 }
    match r.2.2 with
    | some c => { w with
        data := data
        places := Function.update w.places agent (.locating c) }
    | none => { w with
        data := recycleFailed r.2.1 data
        spins := if r.2.1.isSome then w.spins else w.spins + 1 }

/-- The packet number is reduced and the destination computed. -/
def locate (agent : Option ℕ) (c : Completion) (w : ReclaimWorld) : ReclaimWorld :=
  { w with
    faults := if w.data.notificationCount = 0 then .divideByZero :: w.faults else w.faults
    places := Function.update w.places agent (.copying
      { completion := c
        destination := w.data.buffer.isSome
        offset := (c.entry.packetNumber % w.data.notificationCount) * w.data.packetSize }) }

/-- A write of `bytes` through the destination of a slot. -/
def writeThrough (slot : Slot) (first : ℕ) (bytes : List Byte) (w : ReclaimWorld) : ReclaimWorld :=
  if bytes = [] then w
  else if slot.destination = false then { w with faults := .writeToNull :: w.faults }
  else if w.pages = false then { w with faults := .writeToFreed :: w.faults }
  else { w with
    data := { w.data with
      buffer := w.data.buffer.map fun memory => memory.write (slot.offset.toNat + first) bytes } }

/-- `ViosndPcmCopyGain16`; a short completion is followed by a zero fill. -/
def copy (agent : Option ℕ) (slot : Slot) (w : ReclaimWorld) : ReclaimWorld :=
  let c := slot.completion
  let copyLength := if c.bytesRead < w.data.packetSize then c.bytesRead else w.data.packetSize
  let w := writeThrough slot 0
    (viosndPcmCopyGain16 captureSoftwareGain (c.audio.slice 0 copyLength.toNat)) w
  { w with
    places := Function.update w.places agent
      (if c.bytesRead < w.data.packetSize then .zeroing slot else .counting c) }

/-- `RtlZeroMemory`; `m_PacketSize` is read again. -/
def zeroFill (agent : Option ℕ) (slot : Slot) (w : ReclaimWorld) : ReclaimWorld :=
  let c := slot.completion
  let w := writeThrough slot c.bytesRead.toNat
    (List.replicate (w.data.packetSize - c.bytesRead).toNat 0) w
  { w with places := Function.update w.places agent (.counting c) }

/-- The counters, and the buffer goes back to the pool. -/
def count (agent : Option ℕ) (c : Completion) (w : ReclaimWorld) : ReclaimWorld :=
  let data := Capture.countReady { w.data with
    packetNumber := c.entry.packetNumber + 1
    position := w.data.position + w.data.packetSize.setWidth 64
    history := .stored c.entry.packetNumber (c.audio.slice 0 c.bytesRead.toNat) ::
      w.data.history }
  { w with
    data := Capture.recycleCaptureIo c.entry.io data
    places := Function.update w.places agent .asking }

/-- The next step of a thread that is in `ReclaimCapturePackets`. -/
def reclaim (agent : Option ℕ) (answer : Answer) (w : ReclaimWorld) : ReclaimWorld :=
  match w.places agent with
  | .out => w
  | .asking => ask agent answer w
  | .locating c => locate agent c w
  | .copying slot => copy agent slot w
  | .zeroing slot => zeroFill agent slot w
  | .counting c => count agent c w

/-! ## Runs -/

inductive ReclaimInput where
  /-- A step of `SetState`, of `AddRef` and `Release` or of a worker, outside of the routine. -/
  | thread (i : Input)
  /-- The thread calls `ReclaimCapturePackets`. -/
  | enter (agent : Option ℕ)
  | reclaim (agent : Option ℕ) (answer : Answer)
  /-- `FreeAudioBuffer`: `MmFreePagesFromMdl`, then the fields are cleared. -/
  | freePages
  | clearFields
  /-- The RX queue is torn down. -/
  | loseQueue
  /-- `SetState` and the submissions of a worker leave these values in the other fields. -/
  | others (v : Capture.World)

def ReclaimAt.isOut : ReclaimAt → Bool
  | .out => true
  | _ => false

/-- `ReclaimCapturePackets` is called in the loop of a worker, and in `SetState` after RELEASE. -/
def ReclaimWorld.mayEnter (w : ReclaimWorld) : Option ℕ → Bool
  | none =>
      match w.threads.caller with
      | .leave (.configure _) => true
      | _ => false
  | some thread => (w.threads.threads[thread]?).any Place.inLoop

/-- The step is one of a thread that is in the routine. -/
def ReclaimWorld.inside (w : ReclaimWorld) : Input → Bool
  | .caller _ => !(w.places none).isOut
  | .worker thread _ => !(w.places (some thread)).isOut
  | _ => false

def ReclaimWorld.step (w : ReclaimWorld) : ReclaimInput → ReclaimWorld
  | .thread i => if w.inside i then w else { w with threads := w.threads.step i }
  | .enter agent =>
      if w.mayEnter agent ∧ (w.places agent).isOut then
        { w with places := Function.update w.places agent .asking }
      else w
  | .reclaim agent answer => reclaim agent answer w
  | .freePages => { w with pages := false }
  | .clearFields =>
      if w.pages then w
      else { w with data := Capture.forgetBuffer (Capture.freeCaptureIoPool w.data) }
  | .loseQueue => { w with rxQueue := false }
  | .others v => { w with
      data := { v with
        buffer := w.data.buffer
        bufferSize := w.data.bufferSize
        notificationCount := w.data.notificationCount
        packetSize := w.data.packetSize } }

/-! ## Orderly teardown -/

structure ReclaimWorld.Allocated (w : ReclaimWorld) : Prop where
  pages : w.pages = true
  buffer : w.data.buffer.isSome = true
  count : w.data.notificationCount ≠ 0

/-- The queue is there when it is asked, a successful completion finds the buffer allocated, and the
pages are freed only while no thread writes a completion to them. -/
def Orderly (w : ReclaimWorld) : ReclaimInput → Prop
  | .reclaim agent answer => w.places agent = .asking →
      w.rxQueue = true ∧ ∀ c, answer = .completed c → w.Allocated
  | .freePages => ∀ agent, ¬ (w.places agent).Writes
  | _ => True

end Viosnd.Reclaim
