import Viosnd.Acx.RenderStream
import Viosnd.Lib.BoundedQueue

/-!
# A stream of the ACX circuits

`VIOSND_ACX_STREAM` with its period array, its real-time packets and the virtqueue of its direction.
The callbacks of a stream come one at a time, and none comes while the interrupt drains the queues.
The device completes chains between two callbacks, and while a callback sleeps or waits for a
command.
-/

namespace Viosnd.Circuit

open Acx (Ready sndStatusOk clampPeriodCount)

def pageSize : ℕ := 4096

/-- `VIOSND_ACX_PERIOD`; `packet` is the packet that was copied to a render period. -/
structure Period where
  packetNumber : ULONGLONG
  packet : Ready
  inFlight : Bool

/-- A chain on the virtqueue. Its token is the address of a period: an array and an index. -/
structure Chain where
  array : ℕ
  period : ℕ
  packetNumber : ULONGLONG
  packet : Ready
  deriving DecidableEq, Repr

/-- What the device writes into the status of a period. -/
structure Answer where
  status : ULONG
  latencyBytes : ULONG

structure Copy where
  offset : ℕ
  bytes : ℕ
  allocBytes : ℕ
  deriving DecidableEq, Repr

structure Log where
  commands : List (PcmCommand × NtStatus)
  /-- Packets taken by `ViosndQueueRenderPacket`. -/
  accepted : List Ready
  /-- Packets displaced by an overflow of the queue. -/
  overflowed : List Ready
  /-- Packets whose submission failed. -/
  failed : List Ready
  /-- Packets that `ViosndClearRenderQueue` found in the queue. -/
  cleared : List Ready
  /-- Packets whose period came back. -/
  notified : List Ready
  /-- The packet numbers that `AcxRtStreamNotifyPacketComplete` was called with. -/
  notifiedNumbers : List ULONGLONG
  copies : List Copy
  /-- How many buffers came back that belong to a freed array. -/
  staleTokens : ℕ

/-- The context of a stream, zeroed as long as there is none. -/
structure Stream where
  /-- `Device->RenderStream` or `Device->CaptureStream` is not `NULL`. -/
  present : Bool
  capture : Bool
  prepared : Bool
  running : Bool
  packetCount : ℕ
  packetSize : ℕ
  packetAllocBytes : ℕ
  firstPacketOffset : ℕ
  /-- `PacketBuffers != NULL`. -/
  packetBuffers : Bool
  /-- `Periods`, by the number of its allocation. -/
  periods : Option ℕ
  period : ℕ → Period
  periodCount : ℕ
  periodBytes : ℕ
  bufferBytes : ℕ
  renderReadyQueue : ℕ → Ready
  renderReadyCapacity : ℕ
  renderReadyHead : ℕ
  renderReadyTail : ℕ
  renderReadyCount : ℕ
  packetsCompleted : ULONGLONG
  nextCapturePacket : ULONGLONG
  positionBytes : ULONGLONG
  lastLatencyBytes : ULONG
  xrunCount : ULONG
  /-- `Queues[VIRTIO_SND_VQ_TX]` or `Queues[VIRTIO_SND_VQ_RX]` is not `NULL`. -/
  hasQueue : Bool
  queue : BoundedQueue Chain Answer
  nextArray : ℕ
  nextSerial : ℕ
  log : Log

/-! ## Real-time packets -/

/-- `Packets[index].RtPacketOffset`. -/
def Stream.rtPacketOffset (s : Stream) (index : ℕ) : ℕ :=
  if index = 0 then s.firstPacketOffset else 0

/-- `ViosndGetPacketVa`, as the index of the packet. -/
def getPacketVa (s : Stream) (packet : ULONG) : Option ℕ :=
  if s.packetBuffers = false ∨ s.packetCount = 0 ∨ s.packetSize = 0 then none
  else some (packet.toNat % s.packetCount)

/-- A copy of a period from or to the packet. -/
def Stream.copy (s : Stream) (index : ℕ) : Stream := { s with
  log := { s.log with
    copies := s.log.copies ++ [⟨s.rtPacketOffset index, s.periodBytes, s.packetAllocBytes⟩] } }

/-- `ViosndFreeRtPacketStorage`. -/
def freeRtPacketStorage (s : Stream) : Stream := { s with
  packetBuffers := false
  packetCount := 0
  packetSize := 0
  packetAllocBytes := 0
  firstPacketOffset := 0
  renderReadyCapacity := 0
  renderReadyHead := 0
  renderReadyTail := 0
  renderReadyCount := 0 }

/-- `ViosndEvtStreamAllocateRtPackets`; `allocated` when all its allocations succeed. -/
def allocateRtPackets (s : Stream) (packetCount packetSize : ℕ) (allocated : Bool) :
    NtStatus × Stream :=
  if packetCount = 0 ∨ packetSize = 0 ∨ pageSize < packetSize then (.invalidParameter, s)
  else
    let s := freeRtPacketStorage s
    if allocated = false then (.insufficientResources, s)
    else
      let allocBytes := (packetSize + pageSize - 1) / pageSize * pageSize
      (.success, { s with
        packetBuffers := true
        packetCount := packetCount
        packetSize := packetSize
        packetAllocBytes := allocBytes
        firstPacketOffset := allocBytes - packetSize
        renderReadyQueue := fun _ => ⟨0, 0⟩
        renderReadyCapacity := if s.capture then 0 else packetCount })

/-! ## Periods -/

/-- What the allocations for the periods come to. -/
inductive Allocation where
  | none
  /-- The array, but not all buffers of its periods. -/
  | partly
  | all
  deriving DecidableEq, Repr

/-- `ViosndFreeStreamPeriods`. -/
def freeStreamPeriods (s : Stream) : Stream :=
  if s.periods = none then s
  else { s with
    periods := none
    periodCount := 0
    periodBytes := 0
    bufferBytes := 0 }

/-- `ViosndPrepareStreamPeriods`. -/
def prepareStreamPeriods (s : Stream) (allocation : Allocation) : NtStatus × Stream :=
  if s.periods ≠ none then (.success, s)
  else
    let periodBytes := if s.packetSize ≠ 0 then s.packetSize else defaultPeriodBytes.toNat
    if periodBytes = 0 ∨ 256 * 1024 < periodBytes then (.invalidParameter, s)
    else
      let created := { s with
        periods := some s.nextArray
        nextArray := s.nextArray + 1
        period := fun _ => ⟨0, ⟨0, 0⟩, false⟩
        periodCount := clampPeriodCount s.packetCount
        periodBytes := periodBytes
        bufferBytes := periodBytes * clampPeriodCount s.packetCount }
      match allocation with
      | .none => (.insufficientResources, s)
      | .partly => (.insufficientResources, freeStreamPeriods created)
      | .all => (.success, created)

structure ConfigureInput where
  allocation : Allocation
  setParams : NtStatus
  prepare : NtStatus

def Stream.command (s : Stream) (c : PcmCommand) (answer : NtStatus) : Stream := { s with
  log := { s.log with
    commands := s.log.commands ++ [(c, answer)] } }

/-- `ViosndConfigurePcmStream`. -/
def configurePcmStream (i : ConfigureInput) (s : Stream) : NtStatus × Stream :=
  if s.prepared then (.success, s)
  else
    let (status, s) := prepareStreamPeriods s i.allocation
    if status ≠ .success then (status, s)
    else
      let s := s.command .setParams i.setParams
      if i.setParams ≠ .success then (i.setParams, s)
      else
        let s := s.command .prepare i.prepare
        if i.prepare ≠ .success then (i.prepare, s)
        else
          (.success, { s with
            prepared := true
            packetsCompleted := 0
            nextCapturePacket := 0
            positionBytes := 0 })

/-! ## The queue of ready packets -/

def Stream.dropOldest (s : Stream) : Stream := { s with
  renderReadyHead := (s.renderReadyHead + 1) % s.renderReadyCapacity
  renderReadyCount := s.renderReadyCount - 1
  xrunCount := s.xrunCount + 1
  log := { s.log with
    overflowed := s.log.overflowed ++ [s.renderReadyQueue s.renderReadyHead] } }

def Stream.storeReady (s : Stream) (packet : ULONG) : Stream := { s with
  renderReadyQueue := Function.update s.renderReadyQueue s.renderReadyTail ⟨packet, s.nextSerial⟩
  renderReadyTail := (s.renderReadyTail + 1) % s.renderReadyCapacity
  renderReadyCount := s.renderReadyCount + 1
  nextSerial := s.nextSerial + 1
  log := { s.log with
    accepted := s.log.accepted ++ [⟨packet, s.nextSerial⟩] } }

/-- `ViosndQueueRenderPacket`. -/
def queueRenderPacket (s : Stream) (packet : ULONG) : Stream :=
  (if s.renderReadyCapacity ≤ s.renderReadyCount then s.dropOldest else s).storeReady packet

/-- `ViosndPeekRenderPacket`. -/
def peekRenderPacket (s : Stream) : Option Ready :=
  if s.renderReadyCount ≠ 0 then some (s.renderReadyQueue s.renderReadyHead) else none

/-- `ViosndPopRenderPacket`. -/
def popRenderPacket (s : Stream) : Stream :=
  if s.renderReadyCount ≠ 0 then { s with
    renderReadyHead := (s.renderReadyHead + 1) % s.renderReadyCapacity
    renderReadyCount := s.renderReadyCount - 1 }
  else s

def Stream.ready (s : Stream) : List Ready :=
  RingQueue.contents s.renderReadyQueue s.renderReadyCapacity s.renderReadyHead s.renderReadyCount

/-- `ViosndClearRenderQueue`. -/
def clearRenderQueue (s : Stream) : Stream :=
  if s.capture then s
  else { s with
    renderReadyHead := 0
    renderReadyTail := 0
    renderReadyCount := 0
    log := { s.log with
      cleared := s.log.cleared ++ s.ready } }

/-! ## Submission -/

def Stream.freePeriod (s : Stream) : Option ℕ :=
  (List.range s.periodCount).find? fun i => !(s.period i).inFlight

def Stream.setPeriod (s : Stream) (i : ℕ) (p : Period) : Stream := { s with
  period := Function.update s.period i p }

/-- Descriptors of a render chain and of a capture chain. -/
def renderDescriptors : ℕ := 2
def captureDescriptors : ℕ := 3

/-- The chain of period `i`. -/
def Stream.chain (s : Stream) (i : ℕ) : Chain :=
  ⟨s.periods.getD 0, i, (s.period i).packetNumber, (s.period i).packet⟩

/-- Period `i` with the packet that is copied to it. -/
def Stream.fillRender (s : Stream) (index i : ℕ) (packet : Ready) : Stream :=
  (s.copy index).setPeriod i { s.period i with
    packetNumber := packet.packet.setWidth 64
    packet := packet }

def Stream.fillCapture (s : Stream) (i : ℕ) (packetNumber : ULONGLONG) : Stream :=
  s.setPeriod i { s.period i with
    packetNumber := packetNumber }

/-- The virtqueue took the chain of period `i`. -/
def Stream.sent (s : Stream) (i : ℕ) (queue : BoundedQueue Chain Answer) : Stream :=
  { s.setPeriod i { s.period i with
      inFlight := true } with
    queue := queue }

/-- `virtqueue_add_buf` for period `i`, filled in before. -/
def addPeriod (s : Stream) (i descriptors : ℕ) : NtStatus × Stream :=
  match s.queue.add (s.chain i) descriptors with
  | none => (.deviceBusy, s)
  | some queue => (.success, s.sent i queue)

/-- `ViosndSubmitRenderPacket`. -/
def submitRenderPacket (s : Stream) (packet : Ready) : NtStatus × Stream :=
  if s.capture ∨ s.periods = none ∨ s.periodCount = 0 ∨ s.packetCount = 0 ∨ s.hasQueue = false then
    (.deviceNotReady, s)
  else
    match getPacketVa s packet.packet with
    | none => (.deviceNotReady, s)
    | some index =>
        match s.freePeriod with
        | none => (.deviceBusy, s)
        | some i => addPeriod (s.fillRender index i packet) i renderDescriptors

def Stream.fail (s : Stream) (packet : Ready) : Stream := { s with
  xrunCount := s.xrunCount + 1
  log := { s.log with
    failed := s.log.failed ++ [packet] } }

/-- The loop of `ViosndPumpRenderQueue` with `n` packets in the queue. -/
def pumpPackets : ℕ → Stream → Stream
  | 0, s => s
  | n + 1, s =>
      match peekRenderPacket s with
      | none => s
      | some packet =>
          match submitRenderPacket s packet with
          | (.deviceBusy, s) => s
          | (.success, s) => pumpPackets n (popRenderPacket s)
          | (_, s) => popRenderPacket (s.fail packet)

/-- `ViosndPumpRenderQueue`. -/
def pumpRenderQueue (s : Stream) : Stream :=
  if s.capture ∨ s.prepared = false then s else pumpPackets s.renderReadyCount s

/-- `ViosndSubmitCapturePeriod`. -/
def submitCapturePeriod (s : Stream) (i : ℕ) (packetNumber : ULONGLONG) : NtStatus × Stream :=
  if s.capture = false ∨ s.hasQueue = false then (.deviceNotReady, s)
  else if (s.period i).inFlight then (.deviceBusy, s)
  else addPeriod (s.fillCapture i packetNumber) i captureDescriptors

/-! ## Completion -/

/-- A chain the device completes, by its place among those in flight, with its answer. -/
structure Completion where
  chain : ℕ
  answer : Answer

def Stream.complete (s : Stream) (c : Completion) : Stream := { s with
  queue := s.queue.complete (c.chain % s.queue.inFlight.length) c.answer }

def Stream.completeAll (s : Stream) (completions : List Completion) : Stream :=
  completions.foldl Stream.complete s

/-- The counters after the completion of period `p`. -/
def Stream.count (s : Stream) (p : Period) (answer : Answer) : Stream :=
  let xrunCount := if answer.status ≠ sndStatusOk then s.xrunCount + 1 else s.xrunCount
  let packetsCompleted :=
    if s.packetsCompleted < p.packetNumber + 1 then p.packetNumber + 1 else s.packetsCompleted
  { s with
    xrunCount := xrunCount
    lastLatencyBytes := answer.latencyBytes
    packetsCompleted := packetsCompleted
    positionBytes := packetsCompleted * BitVec.ofNat 64 s.periodBytes
    log := { s.log with
      notified := s.log.notified ++ [p.packet]
      notifiedNumbers := s.log.notifiedNumbers ++ [p.packetNumber] } }

def Stream.stale (s : Stream) : Stream := { s with
  log := { s.log with
    staleTokens := s.log.staleTokens + 1 } }

/-- `virtqueue_get_buf` returned the period: `InFlight = FALSE`. -/
def Stream.release (s : Stream) (i : ℕ) : Stream :=
  s.setPeriod i { s.period i with
    inFlight := false }

/-- One pass of `ViosndDrainRenderQueue`. -/
def completeRender (s : Stream) (chain : Chain) (answer : Answer) : Stream :=
  if s.periods ≠ some chain.array then s.stale
  else (s.release chain.period).count (s.period chain.period) answer

/-- The audio of a capture period goes to its packet, where there is one. -/
def copyCapture (s : Stream) (packetNumber : ULONGLONG) : Stream :=
  match getPacketVa s (packetNumber.setWidth 32) with
  | none => s
  | some index => s.copy index

/-- A running stream submits the period again. -/
def resubmitCapture (s : Stream) (i : ℕ) : Stream :=
  if s.running then
    match submitCapturePeriod s i s.nextCapturePacket with
    | (.success, s) => { s with
        nextCapturePacket := s.nextCapturePacket + 1 }
    | (.deviceBusy, s) => s
    | (_, s) => { s with
        xrunCount := s.xrunCount + 1 }
  else s

/-- One pass of `ViosndDrainCaptureQueue`. The packet number is still there when the memory was
freed. -/
def completeCapture (s : Stream) (chain : Chain) (answer : Answer) : Stream :=
  if s.periods ≠ some chain.array then copyCapture s.stale chain.packetNumber
  else
    let p := s.period chain.period
    resubmitCapture ((copyCapture (s.release chain.period) p.packetNumber).count p answer)
      chain.period

/-- The loop of a drain with `n` buffers in the used ring. -/
def drainUsed (pass : Stream → Chain → Answer → Stream) : ℕ → Stream → Stream
  | 0, s => s
  | n + 1, s =>
      match s.queue.get with
      | none => s
      | some ((chain, answer), queue) => drainUsed pass n (pass { s with
          queue := queue } chain answer)

/-- `ViosndDrainStreamQueue`. -/
def drainStreamQueue (s : Stream) : Stream :=
  if s.present = false ∨ s.hasQueue = false then s
  else if s.capture then drainUsed completeCapture s.queue.completed.length s
  else pumpRenderQueue (drainUsed completeRender s.queue.completed.length s)

/-! ## Stopping -/

/-- `ViosndStreamHasInFlight`. -/
def streamHasInFlight (s : Stream) : Bool :=
  s.periods.isSome && (List.range s.periodCount).any fun i => (s.period i).inFlight

/-- The loop of `ViosndWaitForStreamIdle` with `n` milliseconds left; `sleeps` is what the device
completes in each of them. -/
def waitForStreamIdle : ℕ → List (List Completion) → Stream → Stream
  | n, sleeps, s =>
      let s := drainStreamQueue s
      if streamHasInFlight s = false then s
      else match n with
        | 0 => { s with
            xrunCount := s.xrunCount + 1 }
        | n + 1 => waitForStreamIdle n sleeps.tail (s.completeAll (sleeps.headD []))

/-- What happens while a stream is stopped: the answers to the commands, and what the device
completes meanwhile, in each sleep, and at last. -/
structure StopInput where
  stop : NtStatus
  release : NtStatus
  meanwhile : List Completion
  sleeps : List (List Completion)
  last : List Completion

def releaseTimeoutMs : ℕ := 1000
def pauseTimeoutMs : ℕ := 20

/-- `ViosndStopStream`. -/
def stopStream (release : Bool) (i : StopInput) (s : Stream) : Stream :=
  if s.present = false then s
  else
    let s := { s with
      running := false }
    if s.prepared = false then s
    else
      let s := clearRenderQueue ((s.command .stop i.stop).completeAll i.meanwhile)
      if release then
        { waitForStreamIdle releaseTimeoutMs i.sleeps (s.command .release i.release) with
          prepared := false }
      else waitForStreamIdle pauseTimeoutMs i.sleeps s

/-! ## Callbacks -/

/-- `ViosndEvtStreamPrepareHardware`. -/
def evtStreamPrepareHardware (i : ConfigureInput) (s : Stream) : NtStatus × Stream :=
  let (status, s) := configurePcmStream i s
  (status, if status ≠ .success then freeStreamPeriods s else s)

/-- The loop of `ViosndEvtStreamRun` over the periods from `i` on, `n` of them. -/
def submitCapturePeriods : ℕ → ℕ → Stream → NtStatus × Stream
  | 0, _, s => (.success, s)
  | n + 1, i, s =>
      match submitCapturePeriod s i s.nextCapturePacket with
      | (.success, s) => submitCapturePeriods n (i + 1) { s with
          nextCapturePacket := s.nextCapturePacket + 1 }
      | (.deviceBusy, s) => submitCapturePeriods n (i + 1) s
      | (status, s) => (status, s)

/-- `ViosndEvtStreamRun` of a stream that is prepared: periods or packets are submitted. -/
def submitStream (s : Stream) : NtStatus × Stream :=
  if s.capture then submitCapturePeriods s.periodCount 0 s else (.success, pumpRenderQueue s)

structure RunInput where
  configure : ConfigureInput
  start : NtStatus
  /-- What the device completes before it answers. -/
  meanwhile : List Completion

/-- `ViosndEvtStreamRun`. -/
def evtStreamRun (i : RunInput) (s : Stream) : NtStatus × Stream :=
  if s.running then (.success, s)
  else
    let (status, s) := configurePcmStream i.configure s
    if status ≠ .success then (status, s)
    else
      let (status, s) := submitStream s
      if status ≠ .success then (status, s)
      else
        let s := (s.command .start i.start).completeAll i.meanwhile
        if i.start ≠ .success then
          (i.start, { s with
            running := false })
        else
          let s := { s with
            running := true }
          (.success, if s.capture then s else pumpRenderQueue s)

/-- `ViosndEvtStreamSetRenderPacket`. -/
def evtStreamSetRenderPacket (s : Stream) (packet : ULONG) : NtStatus × Stream :=
  if s.capture then (.invalidDeviceRequest, s)
  else if s.renderReadyCapacity = 0 then (.deviceNotReady, s)
  else
    let s := queueRenderPacket s packet
    (.success, if s.running then pumpRenderQueue s else s)

/-- `ViosndEvtStreamCleanup`. -/
def evtStreamCleanup (s : Stream) : Stream :=
  let s := freeStreamPeriods s
  { s with
    present := false }

def createStream (s : Stream) : Stream := { s with
  present := true
  prepared := false
  running := false
  packetCount := 0
  packetSize := 0
  packetAllocBytes := 0
  firstPacketOffset := 0
  packetBuffers := false
  periods := none
  periodCount := 0
  periodBytes := 0
  bufferBytes := 0
  renderReadyCapacity := 0
  renderReadyHead := 0
  renderReadyTail := 0
  renderReadyCount := 0
  packetsCompleted := 0
  nextCapturePacket := 0
  positionBytes := 0
  lastLatencyBytes := 0
  xrunCount := 0 }

/-! ## Runs -/

/-- The render stream and the capture stream of a device. -/
structure World where
  streams : Bool → Stream

/-- `ViosndAcxDrainQueues`. -/
def drainQueues (w : World) : World := ⟨fun capture => drainStreamQueue (w.streams capture)⟩

def World.on (w : World) (capture : Bool) (f : Stream → Stream) : World :=
  ⟨Function.update w.streams capture (f (w.streams capture))⟩

def World.callback (w : World) (capture : Bool) (f : Stream → Stream) : World :=
  if (w.streams capture).present then w.on capture f else w

inductive Input where
  | create (capture : Bool)
  | cleanup (capture : Bool)
  | allocateRtPackets (capture : Bool) (packetCount packetSize : ℕ) (allocated : Bool)
  | freeRtPackets (capture : Bool)
  | prepareHardware (capture : Bool) (i : ConfigureInput)
  | run (capture : Bool) (i : RunInput)
  | pause (capture : Bool) (i : StopInput)
  | releaseHardware (capture : Bool) (i : StopInput)
  | setRenderPacket (packet : ULONG)
  | complete (capture : Bool) (c : Completion)
  | interrupt

/-- `ViosndEvtStreamPause`. -/
def evtStreamPause (capture : Bool) (i : StopInput) (w : World) : World :=
  drainQueues (w.on capture fun s => (stopStream false i s).completeAll i.last)

/-- `ViosndEvtStreamReleaseHardware`. -/
def evtStreamReleaseHardware (capture : Bool) (i : StopInput) (w : World) : World :=
  (drainQueues (w.on capture fun s => (stopStream true i s).completeAll i.last)).on capture
    freeStreamPeriods

def World.step (w : World) : Input → World
  | .create capture =>
      if (w.streams capture).present then w else w.on capture createStream
  | .cleanup capture => w.callback capture evtStreamCleanup
  | .allocateRtPackets capture packetCount packetSize allocated =>
      w.callback capture fun s => (allocateRtPackets s packetCount packetSize allocated).2
  | .freeRtPackets capture => w.callback capture freeRtPacketStorage
  | .prepareHardware capture i => w.callback capture fun s => (evtStreamPrepareHardware i s).2
  | .run capture i => w.callback capture fun s => (evtStreamRun i s).2
  | .pause capture i =>
      if (w.streams capture).present then evtStreamPause capture i w else w
  | .releaseHardware capture i =>
      if (w.streams capture).present then evtStreamReleaseHardware capture i w else w
  | .setRenderPacket packet => w.callback false fun s => (evtStreamSetRenderPacket s packet).2
  | .complete capture c => w.on capture fun s => s.complete c
  | .interrupt => drainQueues w

/-- No stream yet: whether there is a queue, and its size. -/
def Stream.fresh (capture hasQueue : Bool) (queueSize : ℕ) : Stream where
  present := false
  capture := capture
  prepared := false
  running := false
  packetCount := 0
  packetSize := 0
  packetAllocBytes := 0
  firstPacketOffset := 0
  packetBuffers := false
  periods := none
  period := fun _ => ⟨0, ⟨0, 0⟩, false⟩
  periodCount := 0
  periodBytes := 0
  bufferBytes := 0
  renderReadyQueue := fun _ => ⟨0, 0⟩
  renderReadyCapacity := 0
  renderReadyHead := 0
  renderReadyTail := 0
  renderReadyCount := 0
  packetsCompleted := 0
  nextCapturePacket := 0
  positionBytes := 0
  lastLatencyBytes := 0
  xrunCount := 0
  hasQueue := hasQueue
  queue := BoundedQueue.new queueSize
  nextArray := 0
  nextSerial := 0
  log := ⟨[], [], [], [], [], [], [], [], 0⟩

/-- The queues of a device, by direction, before any stream. -/
def World.fresh (hasQueue : Bool → Bool) (queueSize : Bool → ℕ) : World :=
  ⟨fun capture => Stream.fresh capture (hasQueue capture) (queueSize capture)⟩

end Viosnd.Circuit
