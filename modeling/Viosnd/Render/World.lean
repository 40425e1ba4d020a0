import Viosnd.Pcm

/-!
# The render stream and its TX queue

`CViosndMiniportWaveRTStream` with `m_Capture = FALSE`, the TX virtqueue it submits to and the
commands it sends. The virtqueue is the set of buffers whose token it holds. The history records,
newest first, what the stream did with its buffers and what it reported.
-/

namespace Viosnd.Render

/-- `VIOSND_PCM_IO`: an allocation and the size it was made with. What a submission writes into it
is kept with the queue entry, since every submission writes it anew. -/
structure PcmIo where
  id : Nat
  requestLength : Nat
  deriving DecidableEq, Repr

/-- A buffer on the TX queue with the fields `ViosndSubmitPreparedWritePcm` filled in. -/
structure TxEntry where
  io : PcmIo
  audioLength : ULONG
  sourceLength : ULONG
  packetNumber : ULONG
  audio : List Byte

inductive Event where
  /-- A lifecycle command and whether the device accepted it. -/
  | command (c : PcmCommand) (accepted : Bool)
  | submitted (entry : TxEntry)
  /-- The device returned the buffer through the used ring. -/
  | returned (entry : TxEntry)
  /-- The driver took the buffer off the queue by itself. -/
  | detached (entry : TxEntry)
  /-- The buffer was pushed to `m_RenderIoPool`. -/
  | pooled (io : PcmIo)
  | freed (io : PcmIo)
  /-- The OS packets a successful submission took its audio from. -/
  | consumed (packets : List ULONG)
  /-- `SetWritePacket` accepted the packet. -/
  | wrote (packet : ULONG)
  /-- A reading of the performance counter. -/
  | counter (qpc : LONGLONG)
  /-- A byte position reported to a client. -/
  | reported (position : ULONGLONG)
  /-- An addition to `m_Position` left 64 bits. -/
  | carried

structure World where
  state : KsState
  buffer : Option Memory
  bufferSize : ULONG
  notificationCount : ULONG
  packetSize : ULONG
  packetNumber : ULONG
  lastOsWritePacket : ULONG
  nextSubmitPacket : ULONG
  eosPacketNumber : ULONG
  eosPacketLength : ULONG
  outstandingWrites : Nat
  renderPrerollPackets : Nat
  renderFallbackPhase : ULONG
  /-- `m_RenderIoPool`, by index. -/
  renderIoPool : Nat → Option PcmIo
  renderIoFreeCount : Nat
  /-- `m_RenderFallbackBufferSize` when `m_RenderFallbackBuffer` is allocated. -/
  renderFallbackBuffer : Option ULONG
  position : ULONGLONG
  runStartPosition : ULONGLONG
  runStartQpc : LONGLONG
  qpcFrequency : LONGLONG
  fallbackMonitorStartPosition : ULONGLONG
  fallbackMonitorStartQpc : LONGLONG
  /-- `m_ThreadObject != NULL`. -/
  threadObject : Bool
  workerStarted : Bool
  renderFallbackActive : Bool
  renderFallbackAttempted : Bool
  /-- `targetOutstanding`, a local of `RenderWorkerLoop`. -/
  targetOutstanding : Nat
  txQueue : List TxEntry
  /-- The next allocation gets this number. -/
  nextIo : Nat
  history : List Event

/-- The constructor, followed by the allocation of a WaveRT buffer of the given geometry. -/
def World.fresh (buffer : Option Memory) (bufferSize notificationCount packetSize : ULONG) :
    World where
  state := .stop
  buffer := buffer
  bufferSize := bufferSize
  notificationCount := notificationCount
  packetSize := packetSize
  packetNumber := 0
  lastOsWritePacket := maxULONG
  nextSubmitPacket := 0
  eosPacketNumber := maxULONG
  eosPacketLength := 0
  outstandingWrites := 0
  renderPrerollPackets := 0
  renderFallbackPhase := 0
  renderIoPool := fun _ => none
  renderIoFreeCount := 0
  renderFallbackBuffer := none
  position := 0
  runStartPosition := 0
  runStartQpc := 0
  qpcFrequency := 0
  fallbackMonitorStartPosition := 0
  fallbackMonitorStartQpc := 0
  threadObject := false
  workerStarted := false
  renderFallbackActive := false
  renderFallbackAttempted := false
  targetOutstanding := 0
  txQueue := []
  nextIo := 0
  history := []

def World.note (w : World) (e : Event) : World := { w with history := e :: w.history }

/-- `if (NT_SUCCESS(status)) { status = next; }`. -/
def whenOk (r : NtStatus × World) (next : World → NtStatus × World) : NtStatus × World :=
  if r.1.isSuccess then next r.2 else r

theorem whenOk_of_success {r : NtStatus × World} {next : World → NtStatus × World}
    (h : r.1.isSuccess = true) : whenOk r next = next r.2 := if_pos h

theorem whenOk_of_failure {r : NtStatus × World} {next : World → NtStatus × World}
    (h : r.1.isSuccess ≠ true) : whenOk r next = r := if_neg h

/-! ## Lifecycle commands -/

/-- `ViosndPcmCommand`; the status the command ends with is the device's answer. -/
def viosndPcmCommand (c : PcmCommand) (answer : NtStatus) (w : World) : NtStatus × World :=
  (answer, w.note (.command c answer.isSuccess))

def viosndStartPcm (answer : NtStatus) (w : World) : NtStatus × World :=
  viosndPcmCommand .start answer w

def viosndStopPcm (answer : NtStatus) (w : World) : NtStatus × World :=
  viosndPcmCommand .stop answer w

def viosndReleasePcm (answer : NtStatus) (w : World) : NtStatus × World :=
  viosndPcmCommand .release answer w

/-- The answers to `SET_PARAMS` and `PREPARE`. -/
structure ConfigureInput where
  setParams : NtStatus
  prepare : NtStatus

/-- The default and the fallback format are configured by the same two commands. -/
def viosndConfigurePcmFormat (i : ConfigureInput) (w : World) : NtStatus × World :=
  whenOk (viosndPcmCommand .setParams i.setParams w) (viosndPcmCommand .prepare i.prepare)

/-! ## The TX queue -/

/-- What happens to a buffer that is put on the TX queue. -/
inductive TxSubmit where
  | queued
  | noQueue
  | mutexTimeout
  | ringFull
  deriving DecidableEq, Repr

def viosndSubmitPreparedWritePcm (audio : List Byte) (length sourceLength packetNumber : ULONG)
    (io : Option PcmIo) (o : TxSubmit) (w : World) : NtStatus × World :=
  if o = .noQueue then (.deviceNotReady, w)
  else match io with
    | none => (.invalidParameter, w)
    | some io =>
        if io.requestLength < sizeofPcmXfer + length.toNat then (.invalidParameter, w)
        else match o with
          | .queued =>
              let entry : TxEntry :=
                { io, audioLength := length
                  sourceLength := if sourceLength ≠ 0 then sourceLength else length
                  packetNumber, audio }
              (.success, { w with
                txQueue := w.txQueue ++ [entry], history := .submitted entry :: w.history })
          | .ringFull => (.deviceBusy, w)
          | _ => (.ioTimeout, w)

/-- What a look at the used ring finds: `used k` is the `k`-th buffer of the queue. -/
inductive TxReclaim where
  | noQueue
  | mutexTimeout
  | empty
  | used (k : Nat)
  deriving DecidableEq, Repr

/-- The PCM status of a returned buffer is logged only: every returned buffer is accepted. -/
def viosndReclaimPreparedWritePcm (o : TxReclaim) (w : World) :
    NtStatus × Option TxEntry × World :=
  match o with
  | .noQueue => (.deviceNotReady, none, w)
  | .mutexTimeout => (.ioTimeout, none, w)
  | .empty => (.notFound, none, w)
  | .used k =>
      match w.txQueue[k]? with
      | none => (.notFound, none, w)
      | some entry => (.success, some entry, { w with
          txQueue := w.txQueue.eraseIdx k, history := .returned entry :: w.history })

/-- What a detach finds: `found k` is the `k`-th buffer of the queue. -/
inductive TxDetach where
  | noQueue
  | mutexTimeout
  | empty
  | found (k : Nat)
  deriving DecidableEq, Repr

def viosndDetachUnusedWritePcm (o : TxDetach) (w : World) : NtStatus × Option TxEntry × World :=
  match o with
  | .noQueue => (.deviceNotReady, none, w)
  | .mutexTimeout => (.ioTimeout, none, w)
  | .empty => (.notFound, none, w)
  | .found k =>
      match w.txQueue[k]? with
      | none => (.notFound, none, w)
      | some entry => (.success, some entry, { w with
          txQueue := w.txQueue.eraseIdx k, history := .detached entry :: w.history })

/-- `ViosndFreeWritePcmIo`. -/
def viosndFreeWritePcmIo (io : Option PcmIo) (w : World) : World :=
  match io with
  | none => w
  | some io => w.note (.freed io)

/-! ## The pool -/

/-- `m_RenderIoPool[m_RenderIoFreeCount++] = io`. -/
def pushRenderIo (io : Option PcmIo) (w : World) : World :=
  { w with
    renderIoPool := Function.update w.renderIoPool w.renderIoFreeCount io
    renderIoFreeCount := w.renderIoFreeCount + 1
    history := match io with
      | none => w.history
      | some io => .pooled io :: w.history }

/-- `io = m_RenderIoPool[--m_RenderIoFreeCount]`, and the slot is cleared. -/
def popRenderIo (w : World) : Option PcmIo × World :=
  (w.renderIoPool (w.renderIoFreeCount - 1),
    { w with
      renderIoPool := Function.update w.renderIoPool (w.renderIoFreeCount - 1) none
      renderIoFreeCount := w.renderIoFreeCount - 1 })

/-- A buffer that left the queue goes to the pool, or is freed when the pool is full. -/
def recycleRenderIo (io : PcmIo) (w : World) : World :=
  if w.renderIoFreeCount < renderIoPoolSize then pushRenderIo (some io) w
  else viosndFreeWritePcmIo (some io) w

/-- The loop of `FreeRenderIoPool` with `n` buffers left in the pool. -/
def freeRenderIos : Nat → World → World
  | 0, w => w
  | n + 1, w =>
      let popped := popRenderIo w
      freeRenderIos n (viosndFreeWritePcmIo popped.1 popped.2)

def freeRenderIoPool (w : World) : World :=
  if w.outstandingWrites ≠ 0 then w
  else { freeRenderIos w.renderIoFreeCount w with renderFallbackBuffer := none }

/-- The allocations of `AllocateRenderIoPool` that succeed. -/
structure PoolInput where
  fallbackBuffer : Bool
  ios : List Bool

/-- The loop of `AllocateRenderIoPool` with `n` buffers to go. -/
def allocateRenderIos (requestLength : Nat) : Nat → List Bool → World → NtStatus × World
  | 0, _, w => (.success, w)
  | n + 1, true :: ios, w =>
      allocateRenderIos requestLength n ios
        { pushRenderIo (some ⟨w.nextIo, requestLength⟩) w with nextIo := w.nextIo + 1 }
  | _ + 1, _, w => (.insufficientResources, freeRenderIoPool w)

def allocateRenderIoPool (i : PoolInput) (w : World) : NtStatus × World :=
  if w.renderIoFreeCount ≠ 0 then (.success, w)
  else if w.packetSize = 0 then (.deviceNotReady, w)
  else if w.renderFallbackBuffer = none ∧ i.fallbackBuffer = false then
    (.insufficientResources, w)
  else
    let size := if fallbackPeriodBytes < w.packetSize then w.packetSize else fallbackPeriodBytes
    allocateRenderIos (sizeofPcmXfer + size.toNat) renderIoPoolSize i.ios
      { w with renderFallbackBuffer := some (w.renderFallbackBuffer.getD size) }

end Viosnd.Render
