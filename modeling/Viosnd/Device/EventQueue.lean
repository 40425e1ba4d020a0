import Viosnd.VirtIO.LiveQueue

/-!
# The event queue

The device fills event buffers and the driver posts each of them again when it has read it:
`ViosndInitializeEventQueue`, `ViosndAcxPostEventBufferLocked` and `ViosndDrainEventQueue` of the
ACX driver. `EventLock` is held while the first buffers are posted and for one turn of the draining
loop, so the thread that holds it is one place of the state, whichever thread it is. The device goes
on between any two accesses to the queue.
-/

namespace Viosnd.Events

open VirtIO

/-- `VIRTIO_SND_EVENT`. -/
structure SndEvent where
  code : ULONG
  data : ULONG
  deriving DecidableEq

def sizeofSndEvent : ℕ := 8

/-- `VIOSND_EVENT_BUFFER_COUNT`. -/
def eventBufferCount : ℕ := 8

/-- `VIRTIO_SND_EVT_PCM_XRUN`. -/
def evtPcmXrun : ULONG := 0x1101

structure EventBuffer where
  /-- `EventVa != NULL`. -/
  mapped : Bool
  eventPa : BitVec 64

/-- A stream, as far as events go. `XrunCount` itself is raised elsewhere too, without `EventLock`;
`eventXruns` is how often the events raised it, and `since` how many had been read before. -/
structure EventStream where
  eventXruns : ℕ
  since : ℕ

structure Device where
  /-- `Queues[VIRTIO_SND_VQ_EVENT] != NULL`. -/
  hasQueue : Bool
  queue : LiveQueue ℕ
  /-- The events in memory, by physical address. -/
  memory : BitVec 64 → SndEvent
  eventPoolPa : BitVec 64
  buffers : ℕ → EventBuffer
  eventBufferCount : ℕ
  renderStream : Option EventStream
  captureStream : Option EventStream

def Device.setMemory (d : Device) (pa : BitVec 64) (event : SndEvent) : Device := { d with
  memory := Function.update d.memory pa event }

def Device.published (d : Device) (ring : SplitRing ℕ) : Device := { d with
  queue := { d.queue with ring, published := d.queue.published + 1 } }

/-- `ViosndAcxPostEventBufferLocked`. -/
def postEventBufferLocked (d : Device) (buffer : ℕ) : NtStatus × Device :=
  if d.hasQueue = false ∨ (d.buffers buffer).mapped = false then (.deviceNotReady, d)
  else
    let pa := (d.buffers buffer).eventPa
    let d := d.setMemory pa ⟨0, 0⟩
    match virtqueueAddBufSplit ⟨pa, BitVec.ofNat 32 sizeofSndEvent⟩ [] 0 buffer none
        d.queue.ring with
    | none => (.deviceBusy, d)
    | some ring => (.success, d.published ring)

/-- `XrunCount++` in each stream there is: the stream that the event names in its data is not looked
at. -/
def countXrun (event : SndEvent) (stream : Option EventStream) : Option EventStream :=
  if event.code = evtPcmXrun then stream.map fun s => { s with
    eventXruns := s.eventXruns + 1 }
  else stream

def Device.fetched (d : Device) (ring : SplitRing ℕ) : Device := { d with
  queue := { d.queue with ring, returned := d.queue.returned.tail } }

/-- The first half of a turn of `ViosndDrainEventQueue`: a buffer is fetched and read. -/
def fetchEvent (d : Device) : Option ℕ × Device :=
  match virtqueueGetBufSplit d.queue.ring with
  | none => (none, { d with
      queue := { d.queue with hung := true } })
  | some (none, _) => (none, d)
  | some (some (none, _), ring) => (none, d.fetched ring)
  | some (some (some buffer, _), ring) =>
      let event := d.memory (d.buffers buffer).eventPa
      (some buffer, { d.fetched ring with
        renderStream := countXrun event d.renderStream
        captureStream := countXrun event d.captureStream })

/-- What the thread that holds `EventLock` does next. -/
inductive Holder where
  | nobody
  /-- `ViosndInitializeEventQueue` has posted the buffers below `i`. -/
  | posting (i : ℕ)
  /-- `ViosndDrainEventQueue` has read the buffer. -/
  | draining (buffer : ℕ)
  /-- `ViosndInitializeEventQueue` has failed behind the buffers below `i`. -/
  | failed (i : ℕ)
  deriving DecidableEq

/-- The device, with what went through the queue, oldest first. -/
structure World where
  device : Device
  holder : Holder
  /-- The events the device has returned, with the buffers they are in. -/
  returned : List (ℕ × SndEvent)
  /-- The events the driver has read. -/
  read : List (ℕ × SndEvent)
  /-- Buffers that were not posted again. -/
  refused : List ℕ

inductive Input where
  /-- The holder of the lock goes on. -/
  | proceed
  /-- A thread acquires the lock for the next turn of `ViosndDrainEventQueue`. -/
  | drain
  | take
  /-- The device writes to the buffer of the `k`-th chain it holds. -/
  | write (k : ℕ) (event : SndEvent)
  | giveBack (k : ℕ) (len : BitVec 32)
  | createStream (capture : Bool)
  | cleanupStream (capture : Bool)

/-- `EventBuffers[i]` in a pool at the address `poolPa`. -/
def poolBuffer (poolPa : BitVec 64) (i : ℕ) : EventBuffer :=
  ⟨true, poolPa + BitVec.ofNat 64 (i * sizeofSndEvent)⟩

def Device.mapBuffer (d : Device) (i : ℕ) : Device := { d with
  buffers := Function.update d.buffers i (poolBuffer d.eventPoolPa i) }

/-- A turn of the loop of `ViosndInitializeEventQueue`, or its end. -/
def proceedPosting (i : ℕ) (w : World) : World :=
  if eventBufferCount ≤ i then { w with
    holder := .nobody }
  else
    match postEventBufferLocked (w.device.mapBuffer i) i with
    | (.success, d) => { w with
        device := { d with
          eventBufferCount := d.eventBufferCount + 1 }
        holder := .posting (i + 1) }
    | (_, d) => { w with
        device := d
        holder := .failed i }

/-- The second half of a turn of `ViosndDrainEventQueue`. -/
def proceedDraining (buffer : ℕ) (w : World) : World :=
  match postEventBufferLocked w.device buffer with
  | (.success, d) => { w with
      device := d
      holder := .nobody }
  | (_, d) => { w with
      device := d
      holder := .nobody
      refused := w.refused ++ [buffer] }

def drainEvent (w : World) : World :=
  match fetchEvent w.device with
  | (none, d) => { w with
      device := d }
  | (some buffer, d) => { w with
      device := d
      holder := .draining buffer
      read := w.read ++ [(buffer, w.device.memory (w.device.buffers buffer).eventPa)] }

/-- The address in the first descriptor of a chain the device holds. -/
def World.heldAddress (w : World) (c : TakenChain) : BitVec 64 :=
  (w.device.queue.ring.desc c.head).addr

def writeEvent (k : ℕ) (event : SndEvent) (w : World) : World :=
  match w.device.queue.held[k]? with
  | none => w
  | some c => { w with
      device := w.device.setMemory (w.heldAddress c) event }

def giveBackEvent (k : ℕ) (len : BitVec 32) (w : World) : World :=
  match w.device.queue.held[k]? with
  | none => w
  | some c => { w with
      device := { w.device with
        queue := giveBackChain k len w.device.queue }
      returned := w.returned ++ [((w.device.queue.ring.data c.head).getD 0,
        w.device.memory (w.heldAddress c))] }

def Device.setStream (d : Device) (capture : Bool) (stream : Option EventStream) : Device :=
  if capture then { d with
    captureStream := stream }
  else { d with
    renderStream := stream }

def World.step (w : World) : Input → World
  | .proceed =>
      match w.holder with
      | .posting i => proceedPosting i w
      | .draining buffer => proceedDraining buffer w
      | _ => w
  | .drain => if w.holder = .nobody then drainEvent w else w
  | .take => { w with
      device := { w.device with
        queue := takeEntry w.device.queue } }
  | .write k event => writeEvent k event w
  | .giveBack k len => giveBackEvent k len w
  | .createStream capture => { w with
      device := w.device.setStream capture (some ⟨0, w.read.length⟩) }
  | .cleanupStream capture => { w with
      device := w.device.setStream capture none }

/-- `ViosndInitializeEventQueue` has its pool and the lock. -/
def World.start (num : ℕ) (poolPa : BitVec 64) (memory : BitVec 64 → SndEvent) : World where
  device := {
    hasQueue := true
    queue := LiveQueue.new ℕ num
    memory := memory
    eventPoolPa := poolPa
    buffers := fun _ => ⟨false, 0⟩
    eventBufferCount := 0
    renderStream := none
    captureStream := none }
  holder := .posting 0
  returned := []
  read := []
  refused := []

def World.onQueue (w : World) : List ℕ :=
  (List.range w.device.queue.ring.num).filterMap w.device.queue.ring.data

/-- The buffers that are not on the queue: not posted yet, or in the hands of a thread. -/
def Holder.buffers : Holder → List ℕ
  | .posting i => (List.range eventBufferCount).drop i
  | .draining buffer => [buffer]
  | .nobody => []
  | .failed i => (List.range eventBufferCount).drop i

end Viosnd.Events
