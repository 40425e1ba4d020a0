import Viosnd.Basic
import Viosnd.Lib.Runs
import Viosnd.Lib.ThreadPool
import Viosnd.Lib.RingQueue

/-!
# The render stream of the ACX driver

`VIOSND_ACX_STREAM` with `Capture = FALSE`, its periods, its queue of ready packets and the TX
virtqueue. Any number of threads call `ViosndEvtStreamSetRenderPacket`, `ViosndPumpRenderQueue` and
`ViosndDrainRenderQueue` at the same time. A step of a thread is a section under `TxLock`, or one
access to the shared state outside of the lock. `XrunCount` is also stored outside of the lock, so
the section that counts an overflow is cut between its read and its store of it.
-/

namespace Viosnd.Acx

/-- An entry of `RenderReadyQueue`, and which call of `ViosndQueueRenderPacket` made it. -/
structure Ready where
  packet : ULONG
  serial : ℕ
  deriving DecidableEq, Repr

/-- `VIOSND_ACX_PERIOD`, with what its `RequestVa` and `StatusVa` point to. -/
structure Period where
  packetNumber : ULONGLONG
  audio : List Byte
  status : ULONG
  latencyBytes : ULONG
  inFlight : Bool
  deriving Repr

/-- A chain on the TX virtqueue: its token, and the packet number it was submitted under. -/
structure TxChain where
  period : ℕ
  packetNumber : ULONGLONG
  deriving DecidableEq, Repr

/-- A completed buffer: the period, its packet number, and what the device wrote. -/
@[ext] structure Completion where
  period : ℕ
  packetNumber : ULONGLONG
  status : ULONG
  latencyBytes : ULONG
  deriving DecidableEq, Repr

/-- `VIRTIO_SND_S_OK`. -/
def sndStatusOk : ULONG := 0x8000

structure Log where
  /-- The packets queued by `ViosndQueueRenderPacket`. -/
  queued : List Ready
  /-- The packets whose audio was given to the device. -/
  submitted : List Ready
  /-- The packets dropped by an overflow of the queue or by a failed submission. -/
  dropped : List Ready
  /-- What each `ViosndPopRenderPacket` removed, with what its loop iteration had peeked. -/
  popped : List (Ready × Ready)
  completed : List Completion
  /-- What each `AcxRtStreamNotifyPacketComplete` was for, with the values its loop iteration of
  `ViosndDrainRenderQueue` read. -/
  notified : List (Completion × Completion)
  /-- How many bad statuses the drains have found. -/
  badStatuses : ℕ

structure RenderStream where
  prepared : Bool
  running : Bool
  /-- `Queues[VIRTIO_SND_VQ_TX] != NULL`. -/
  hasTxQueue : Bool
  packetCount : ℕ
  /-- `PacketBuffers` by index, from the `RtPacketOffset` of the packet on. -/
  packetBuffers : ℕ → Option (List Byte)
  periods : ℕ → Period
  periodCount : ℕ
  periodBytes : ULONG
  renderReadyQueue : ℕ → Ready
  /-- Zero also stands for `RenderReadyQueue == NULL`. -/
  renderReadyCapacity : ℕ
  renderReadyHead : ℕ
  renderReadyTail : ℕ
  renderReadyCount : ℕ
  renderPumpActive : Bool
  packetsCompleted : ULONGLONG
  positionBytes : ULONGLONG
  lastLatencyBytes : ULONG
  xrunCount : ULONG
  /-- How many chains of two descriptors the TX virtqueue takes. -/
  txRoom : ℕ
  /-- The chains the device has not completed. -/
  txAvail : List TxChain
  /-- The used ring, from the next buffer to be reclaimed on. -/
  txUsed : List Completion
  nextSerial : ℕ
  log : Log

/-! ## The queue of ready packets -/

/-- The oldest packet makes room; `XrunCount` is stored later. -/
def RenderStream.dropOldest (s : RenderStream) : RenderStream := { s with
  renderReadyHead := (s.renderReadyHead + 1) % s.renderReadyCapacity
  renderReadyCount := s.renderReadyCount - 1
  log := { s.log with
    dropped := s.log.dropped ++ [s.renderReadyQueue s.renderReadyHead] } }

def RenderStream.storeReady (s : RenderStream) (packet : ULONG) : RenderStream := { s with
  renderReadyQueue := Function.update s.renderReadyQueue s.renderReadyTail ⟨packet, s.nextSerial⟩
  renderReadyTail := (s.renderReadyTail + 1) % s.renderReadyCapacity
  renderReadyCount := s.renderReadyCount + 1
  nextSerial := s.nextSerial + 1
  log := { s.log with
    queued := s.log.queued ++ [⟨packet, s.nextSerial⟩] } }

/-- The queue holds `RenderReadyCapacity` packets. -/
def RenderStream.QueueFull (s : RenderStream) : Prop :=
  s.renderReadyCapacity ≤ s.renderReadyCount

instance (s : RenderStream) : Decidable s.QueueFull :=
  inferInstanceAs (Decidable (_ ≤ _))

/-- `ViosndPeekRenderPacket`. -/
def peekRenderPacket (s : RenderStream) : Option Ready :=
  if s.renderReadyCount ≠ 0 then some (s.renderReadyQueue s.renderReadyHead) else none

/-- `ViosndPopRenderPacket` by the loop iteration that peeked `peeked`. -/
def popRenderPacket (s : RenderStream) (peeked : Ready) : RenderStream :=
  if s.renderReadyCount ≠ 0 then { s with
    renderReadyHead := (s.renderReadyHead + 1) % s.renderReadyCapacity
    renderReadyCount := s.renderReadyCount - 1
    log := { s.log with
      popped := s.log.popped ++ [(s.renderReadyQueue s.renderReadyHead, peeked)] } }
  else s

/-! ## Submission -/

/-- `ViosndGetPacketVa`. -/
def getPacketVa (s : RenderStream) (packet : ULONG) : Option (List Byte) :=
  if s.packetCount = 0 then none else s.packetBuffers (packet.toNat % s.packetCount)

def RenderStream.freePeriod (s : RenderStream) : Option ℕ :=
  (List.range s.periodCount).find? fun i => !(s.periods i).inFlight

/-- The packet that goes out with the next submission, when the stream can submit at all. -/
def RenderStream.submitSource (s : RenderStream) (packet : ULONG) : Option (List Byte) :=
  if s.periodCount = 0 ∨ s.hasTxQueue = false then none else getPacketVa s packet

def Period.fill (p : Period) (packet : ULONG) (audio : List Byte) : Period := { p with
  packetNumber := packet.setWidth 64
  audio := audio
  status := 0
  latencyBytes := 0 }

/-- Period `i` with the packet in it. -/
def RenderStream.fillPeriod (s : RenderStream) (i : ℕ) (packet : ULONG) (audio : List Byte) :
    RenderStream := { s with
  periods := Function.update s.periods i
    ((s.periods i).fill packet (audio.take s.periodBytes.toNat)) }

/-- `virtqueue_add_buf` takes the chain of period `i`. -/
def RenderStream.addChain (s : RenderStream) (i : ℕ) (packet : Ready) : RenderStream := { s with
  periods := Function.update s.periods i { s.periods i with
    inFlight := true }
  txAvail := s.txAvail ++ [⟨i, packet.packet.setWidth 64⟩]
  log := { s.log with
    submitted := s.log.submitted ++ [packet] } }

def RenderStream.TxHasRoom (s : RenderStream) : Prop :=
  s.txAvail.length + s.txUsed.length < s.txRoom

instance (s : RenderStream) : Decidable s.TxHasRoom :=
  inferInstanceAs (Decidable (_ < _))

/-- `ViosndSubmitRenderPacket`. -/
def submitRenderPacket (s : RenderStream) (packet : Ready) : NtStatus × RenderStream :=
  match s.submitSource packet.packet with
  | none => (.deviceNotReady, s)
  | some audio =>
      match s.freePeriod with
      | none => (.deviceBusy, s)
      | some i =>
          let filled := s.fillPeriod i packet.packet audio
          if filled.TxHasRoom then (.success, filled.addChain i packet) else (.deviceBusy, filled)

/-! ## Threads -/

/-- Where a loop iteration of `ViosndPumpRenderQueue` is. -/
inductive PumpPlace where
  | peek
  | submit (packet : Ready)
  /-- The submission failed: `XrunCount` is read next. -/
  | countFailure (packet : Ready)
  /-- `XrunCount` was read: one more is stored next. -/
  | storeFailure (packet : Ready) (xrunCount : ULONG)
  /-- The packet is popped next; `last` when the loop ends after that. -/
  | pop (packet : Ready) (last : Bool)
  /-- The loop is left: `RenderPumpActive` is cleared next. -/
  | release
  deriving DecidableEq, Repr

/-- Where a loop iteration of `ViosndDrainRenderQueue` is once it has a period. -/
inductive DrainPlace where
  | readStatus
  | countError
  | storeError (xrunCount : ULONG)
  | readLatency
  | comparePacketNumber
  | storePacketsCompleted
  | storePosition
  | notify
  deriving DecidableEq, Repr

inductive Place where
  /-- Outside of the driver. -/
  | idle
  | setRenderPacket (packet : ULONG)
  /-- The oldest packet was dropped and `XrunCount` was read, under the lock: one more is stored
  next, and the packet. -/
  | storeOverflow (packet xrunCount : ULONG)
  /-- The packet is queued: `Running` is read next. -/
  | queued
  | pumpRenderQueue
  | pump (place : PumpPlace)
  | drainRenderQueue
  /-- The drain took the completion `taken` from the used ring, and has read `seen` so far. -/
  | drain (place : DrainPlace) (taken seen : Completion)
  deriving DecidableEq, Repr

/-- `ViosndQueueRenderPacket`, up to the store of `XrunCount` when a packet is dropped. -/
def queueRenderPacket (s : RenderStream) (packet : ULONG) : RenderStream × Place :=
  if s.renderReadyCapacity = 0 then (s, .idle)
  else if s.QueueFull then (s.dropOldest, .storeOverflow packet s.xrunCount)
  else (s.storeReady packet, .queued)

/-- The rest of `ViosndQueueRenderPacket`. -/
def storeOverflow (s : RenderStream) (packet xrunCount : ULONG) : RenderStream :=
  { s with
    xrunCount := xrunCount + 1 }.storeReady packet

/-- One step of the loop of `ViosndPumpRenderQueue`. -/
def stepPump (s : RenderStream) : PumpPlace → RenderStream × Place
  | .peek =>
      match peekRenderPacket s with
      | none => (s, .pump .release)
      | some packet => (s, .pump (.submit packet))
  | .submit packet =>
      match submitRenderPacket s packet with
      | (.deviceBusy, s) => (s, .pump .release)
      | (.success, s) => (s, .pump (.pop packet false))
      | (_, s) =>
          ({ s with
            log := { s.log with
              dropped := s.log.dropped ++ [packet] } }, .pump (.countFailure packet))
  | .countFailure packet => (s, .pump (.storeFailure packet s.xrunCount))
  | .storeFailure packet xrunCount =>
      ({ s with
        xrunCount := xrunCount + 1 }, .pump (.pop packet true))
  | .pop packet last =>
      (popRenderPacket s packet, .pump (if last then .release else .peek))
  | .release =>
      ({ s with
        renderPumpActive := false }, .idle)

/-- `virtqueue_get_buf` and the release of the period it returns. -/
def takeUsed (s : RenderStream) : Option (Completion × RenderStream) :=
  match s.txUsed with
  | [] => none
  | c :: rest => some (c, { s with
      txUsed := rest
      periods := Function.update s.periods c.period { s.periods c.period with
        inFlight := false } })

/-- One step of the loop body of `ViosndDrainRenderQueue`, for the period of `taken`. -/
def stepDrain (s : RenderStream) (taken seen : Completion) : DrainPlace → RenderStream × Place
  | .readStatus =>
      let seen := { seen with
        status := (s.periods taken.period).status }
      if seen.status ≠ sndStatusOk then
        ({ s with
          log := { s.log with
            badStatuses := s.log.badStatuses + 1 } }, .drain .countError taken seen)
      else (s, .drain .readLatency taken seen)
  | .countError => (s, .drain (.storeError s.xrunCount) taken seen)
  | .storeError xrunCount =>
      ({ s with
        xrunCount := xrunCount + 1 }, .drain .readLatency taken seen)
  | .readLatency =>
      let seen := { seen with
        latencyBytes := (s.periods taken.period).latencyBytes }
      ({ s with
        lastLatencyBytes := seen.latencyBytes }, .drain .comparePacketNumber taken seen)
  | .comparePacketNumber =>
      if s.packetsCompleted < (s.periods taken.period).packetNumber + 1 then
        (s, .drain .storePacketsCompleted taken seen)
      else (s, .drain .storePosition taken seen)
  | .storePacketsCompleted =>
      ({ s with
        packetsCompleted := (s.periods taken.period).packetNumber + 1 },
        .drain .storePosition taken seen)
  | .storePosition =>
      ({ s with
        positionBytes := s.packetsCompleted * s.periodBytes.setWidth 64 },
        .drain .notify taken seen)
  | .notify =>
      let seen := { seen with
        packetNumber := (s.periods taken.period).packetNumber }
      ({ s with
        log := { s.log with
          notified := s.log.notified ++ [(taken, seen)] } }, .drainRenderQueue)

def stepPlace (s : RenderStream) : Place → RenderStream × Place
  | .idle => (s, .idle)
  | .setRenderPacket packet => queueRenderPacket s packet
  | .storeOverflow packet xrunCount => (storeOverflow s packet xrunCount, .queued)
  | .queued => (s, if s.running then .pumpRenderQueue else .idle)
  | .pumpRenderQueue =>
      -- the compare-exchange on RenderPumpActive
      if s.prepared = false ∨ s.renderPumpActive = true then (s, .idle)
      else
        ({ s with
          renderPumpActive := true }, .pump .peek)
  | .pump place => stepPump s place
  | .drainRenderQueue =>
      if s.hasTxQueue = false then (s, .idle)
      else
        match takeUsed s with
        | none => (s, .pumpRenderQueue)
        | some (taken, s) =>
            (s, .drain .readStatus taken ⟨taken.period, 0, 0, 0⟩)
  | .drain place taken seen => stepDrain s taken seen place

/-- The next step takes `TxLock`. -/
def Place.takesTxLock (s : RenderStream) : Place → Bool
  | .setRenderPacket _ => s.renderReadyCapacity ≠ 0
  | .pump .peek => true
  | .pump (.submit packet) => (s.submitSource packet.packet).isSome
  | .pump (.pop _ _) => true
  | .drainRenderQueue => s.hasTxQueue
  | _ => false

/-- The thread is inside of a section under `TxLock`. -/
def Place.holdsTxLock : Place → Bool
  | .storeOverflow _ _ => true
  | _ => false

/-! ## Runs -/

structure World where
  stream : RenderStream
  threads : List Place

/-- A thread that needs `TxLock` waits while another one holds it. -/
def World.waits (w : World) (place : Place) : Bool :=
  place.takesTxLock w.stream && w.threads.any Place.holdsTxLock

/-- A call a thread makes from outside of the driver. -/
inductive Call where
  | setRenderPacket (packet : ULONG)
  | pumpRenderQueue
  | drainRenderQueue
  deriving DecidableEq, Repr

def Call.entry : Call → Place
  | .setRenderPacket packet => .setRenderPacket packet
  | .pumpRenderQueue => .pumpRenderQueue
  | .drainRenderQueue => .drainRenderQueue

inductive Input where
  /-- The thread, outside of the driver so far, makes a call. -/
  | call (thread : ℕ) (c : Call)
  | move (thread : ℕ)
  /-- The device writes its status for the chain and puts it on the used ring. -/
  | complete (chain : ℕ) (status latencyBytes : ULONG)
  /-- The client writes a packet buffer. -/
  | write (index : ℕ) (audio : List Byte)

/-- The device completes the chain, the `k`-th of those it holds. -/
def RenderStream.deliver (s : RenderStream) (k : ℕ) (chain : TxChain)
    (status latencyBytes : ULONG) : RenderStream := { s with
  periods := Function.update s.periods chain.period { s.periods chain.period with
    status := status
    latencyBytes := latencyBytes }
  txAvail := s.txAvail.eraseIdx k
  txUsed := s.txUsed ++ [⟨chain.period, chain.packetNumber, status, latencyBytes⟩]
  log := { s.log with
    completed := s.log.completed ++
      [⟨chain.period, chain.packetNumber, status, latencyBytes⟩] } }

def RenderStream.complete (s : RenderStream) (k : ℕ) (status latencyBytes : ULONG) :
    RenderStream :=
  match s.txAvail[k]? with
  | none => s
  | some chain => s.deliver k chain status latencyBytes

def RenderStream.writePacket (s : RenderStream) (index : ℕ) (audio : List Byte) : RenderStream :=
  { s with
    packetBuffers := Function.update s.packetBuffers index
      ((s.packetBuffers index).map fun _ => audio) }

def World.step (w : World) : Input → World
  | .call thread c =>
      if w.threads[thread]? = some .idle then { w with
        threads := w.threads.set thread c.entry }
      else w
  | .move thread =>
      match w.threads[thread]? with
      | none => w
      | some place =>
          if w.waits place then w
          else
            let (stream, next) := stepPlace w.stream place
            ⟨stream, w.threads.set thread next⟩
  | .complete k status latencyBytes => { w with
      stream := w.stream.complete k status latencyBytes }
  | .write index audio => { w with
      stream := w.stream.writePacket index audio }

/-! ## A stream before its first packet -/

structure Setup where
  prepared : Bool
  isRunning : Bool
  hasTxQueue : Bool
  packetCount : ℕ
  packetBuffers : ℕ → Option (List Byte)
  periodCount : ℕ
  periodBytes : ULONG
  renderReadyCapacity : ℕ
  txRoom : ℕ

def RenderStream.fresh (setup : Setup) : RenderStream where
  prepared := setup.prepared
  running := setup.isRunning
  hasTxQueue := setup.hasTxQueue
  packetCount := setup.packetCount
  packetBuffers := setup.packetBuffers
  periods := fun _ => ⟨0, [], 0, 0, false⟩
  periodCount := setup.periodCount
  periodBytes := setup.periodBytes
  renderReadyQueue := fun _ => ⟨0, 0⟩
  renderReadyCapacity := setup.renderReadyCapacity
  renderReadyHead := 0
  renderReadyTail := 0
  renderReadyCount := 0
  renderPumpActive := false
  packetsCompleted := 0
  positionBytes := 0
  lastLatencyBytes := 0
  xrunCount := 0
  txRoom := setup.txRoom
  txAvail := []
  txUsed := []
  nextSerial := 0
  log := ⟨[], [], [], [], [], [], 0⟩

/-- Any number of threads, all of them outside of the driver. -/
def World.fresh (setup : Setup) (threadCount : ℕ) : World :=
  ⟨RenderStream.fresh setup, List.replicate threadCount .idle⟩

/-- `ViosndClampPeriodCount`. -/
def clampPeriodCount (packetCount : ℕ) : ℕ :=
  if packetCount < 2 then 4 else if packetCount > 64 then 64 else packetCount

/-- `ViosndEvtStreamAllocateRtPackets`, `ViosndConfigurePcmStream` and `ViosndEvtStreamRun` have
succeeded. -/
def Setup.running (packetCount : ℕ) (packets : ℕ → List Byte) (periodBytes : ULONG)
    (txRoom : ℕ) : Setup where
  prepared := true
  isRunning := true
  hasTxQueue := true
  packetCount := packetCount
  packetBuffers := fun i => some (packets i)
  periodCount := clampPeriodCount packetCount
  periodBytes := periodBytes
  renderReadyCapacity := packetCount
  txRoom := txRoom

def Setup.twoPackets : Setup := Setup.running 2 (fun _ => [1, 2, 3, 4]) 4 32

end Viosnd.Acx
