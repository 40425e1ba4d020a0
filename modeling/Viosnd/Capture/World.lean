import Viosnd.Pcm

/-!
# The capture stream and its RX queue

`CViosndMiniportWaveRTStream` with `m_Capture = TRUE`. The virtqueue is the list of buffers whose
token it holds. The history records, newest first, what happened to buffers and packets.
-/

namespace Viosnd.Capture

/-- `VIOSND_PCM_IO` with the size its audio part was allocated for. -/
structure PcmIo where
  id : Nat
  maxAudioLength : ULONG
  deriving DecidableEq, Repr

/-- A buffer on the RX queue with the fields `ViosndSubmitPreparedReadPcm` filled in. -/
structure RxEntry where
  io : PcmIo
  audioLength : ULONG
  packetNumber : ULONG
  deriving DecidableEq, Repr

inductive Event where
  /-- A lifecycle command and whether the device accepted it. -/
  | command (c : PcmCommand) (accepted : Bool)
  /-- `SetState(KSSTATE_RUN)` reset the counters. -/
  | begun
  | submitted (entry : RxEntry)
  /-- The device returned the buffer through the used ring. -/
  | returned (entry : RxEntry)
  /-- The driver took the buffer off the queue by itself. -/
  | detached (entry : RxEntry)
  /-- The buffer was pushed to `m_CaptureIoPool`. -/
  | pooled (io : PcmIo)
  | freed (io : PcmIo)
  /-- The packet was completed with this audio. -/
  | stored (packet : ULONG) (audio : List Byte)
  /-- The packet was completed with an error. -/
  | failed (packet : ULONG)
  /-- The packets from the first one on were dropped unread. -/
  | dropped (first count : ULONG)
  /-- `GetReadPacket` handed the packet out. -/
  | handedOut (packet : ULONG)

structure World where
  state : KsState
  buffer : Option Memory
  bufferSize : ULONG
  notificationCount : ULONG
  packetSize : ULONG
  packetNumber : ULONG
  nextSubmitPacket : ULONG
  nextReadPacket : ULONG
  outstandingWrites : ULONG
  captureInFlight : Nat
  captureOverflows : ULONG
  captureReadPackets : ULONG
  position : ULONGLONG
  /-- `m_CaptureIoPool`, by index. -/
  captureIoPool : Nat → Option PcmIo
  captureIoFreeCount : Nat
  /-- `m_ThreadObject != NULL`. -/
  threadObject : Bool
  workerStarted : Bool
  /-- `ViosndCaptureFaulted`. -/
  captureFaulted : Bool
  rxQueue : List RxEntry
  /-- The next allocation gets this number. -/
  nextIo : Nat
  history : List Event

def World.note (w : World) (e : Event) : World := { w with history := e :: w.history }

/-! ## The WaveRT buffer -/

def viosndNotificationCountFromBufferSize (bufferSize : ULONG) : ULONG :=
  if bufferSize = 0 then 0
  else if bufferSize / defaultPeriodBytes < 1 then 1 else bufferSize / defaultPeriodBytes

def viosndPacketSizeFromNotificationCount (bufferSize : ULONG) : ULONG :=
  if bufferSize < defaultPeriodBytes then bufferSize else defaultPeriodBytes

def viosndUsableBufferSizeFromAllocatedSize (allocatedSize : ULONG) : ULONG :=
  if allocatedSize < defaultPeriodBytes then allocatedSize
  else viosndNotificationCountFromBufferSize allocatedSize * defaultPeriodBytes

/-- The constructor, followed by `AllocateAudioBuffer` when `allocated` pages were granted. -/
def World.fresh (allocated : Option ULONG) : World :=
  let bufferSize := match allocated with
    | none => 0
    | some size => viosndUsableBufferSizeFromAllocatedSize size
  { state := .stop
    buffer := allocated.map fun _ _ => 0
    bufferSize := bufferSize
    notificationCount := viosndNotificationCountFromBufferSize bufferSize
    packetSize := viosndPacketSizeFromNotificationCount bufferSize
    packetNumber := 0
    nextSubmitPacket := 0
    nextReadPacket := 0
    outstandingWrites := 0
    captureInFlight := 0
    captureOverflows := 0
    captureReadPackets := 0
    position := 0
    captureIoPool := fun _ => none
    captureIoFreeCount := 0
    threadObject := false
    workerStarted := false
    captureFaulted := false
    rxQueue := []
    nextIo := 0
    history := [] }

/-! ## Lifecycle commands -/

/-- `if (NT_SUCCESS(status)) { status = next; }`. -/
def whenOk (r : NtStatus × World) (next : World → NtStatus × World) : NtStatus × World :=
  if r.1.isSuccess then next r.2 else r

/-- `ViosndPcmCommand`; the status the command ends with is the device's answer. -/
def viosndPcmCommand (c : PcmCommand) (answer : NtStatus) (w : World) : NtStatus × World :=
  (answer, w.note (.command c answer.isSuccess))

/-- The answers to `SET_PARAMS` and `PREPARE`. -/
structure ConfigureInput where
  setParams : NtStatus
  prepare : NtStatus

def viosndConfigureDefaultPcm (i : ConfigureInput) (w : World) : NtStatus × World :=
  whenOk (viosndPcmCommand .setParams i.setParams w) (viosndPcmCommand .prepare i.prepare)

/-! ## The RX queue -/

/-- What happens to a buffer that is put on the RX queue. -/
inductive RxSubmit where
  | queued
  | noQueue
  | ringFull
  deriving DecidableEq, Repr

def viosndSubmitPreparedReadPcm (length packetNumber : ULONG) (io : Option PcmIo) (o : RxSubmit)
    (w : World) : NtStatus × World :=
  if o = .noQueue then (.deviceNotReady, w)
  else match io with
    | none => (.invalidParameter, w)
    | some io =>
        if io.maxAudioLength < length then (.invalidParameter, w)
        else if o = .ringFull then (.deviceBusy, w)
        else
          let entry : RxEntry := ⟨io, length, packetNumber⟩
          (.success, { w with
            rxQueue := w.rxQueue ++ [entry], history := .submitted entry :: w.history })

/-- What a look at the used ring finds. `used` is the `k`-th buffer of the queue with the length
in the used ring, the status word at its end and the bytes in its audio part. -/
inductive RxReclaim where
  | empty
  | used (k : Nat) (usedLength : ULONG) (statusOk : Bool) (audio : Memory)

/-- `ViosndReclaimPreparedReadPcm`: status, buffer, `BytesRead`. -/
def viosndReclaimPreparedReadPcm (o : RxReclaim) (w : World) :
    NtStatus × Option RxEntry × ULONG × World :=
  match o with
  | .empty => (.notFound, none, 0, w)
  | .used k usedLength statusOk _ =>
      match w.rxQueue[k]? with
      | none => (.notFound, none, 0, w)
      | some entry =>
          let w := { w with
            rxQueue := w.rxQueue.eraseIdx k, history := .returned entry :: w.history }
          if usedLength < BitVec.ofNat 32 sizeofPcmStatus ∨ statusOk = false then
            (.ioDeviceError, some entry, 0, w)
          else
            let payload := usedLength - BitVec.ofNat 32 sizeofPcmStatus
            (.success, some entry,
              if entry.audioLength < payload then entry.audioLength else payload, w)

/-- `ViosndFreeReadPcmIo`. -/
def viosndFreeReadPcmIo (io : Option PcmIo) (w : World) : World :=
  match io with
  | none => w
  | some io => w.note (.freed io)

/-- The `k`-th buffer of the queue is detached and freed. -/
def detachRead (k : Nat) (w : World) : World :=
  match w.rxQueue[k % w.rxQueue.length]? with
  | none => w
  | some entry => viosndFreeReadPcmIo (some entry.io) { w with
      rxQueue := w.rxQueue.eraseIdx (k % w.rxQueue.length)
      history := .detached entry :: w.history }

/-- The loop of `ViosndDetachUnusedReadPcm` with `n` buffers left on the queue. -/
def detachReads : Nat → List Nat → World → World
  | 0, _, w => w
  | n + 1, picks, w => detachReads n picks.tail (detachRead (picks.headD 0) w)

/-- `picks` says in which order the queue gives its buffers up. -/
def viosndDetachUnusedReadPcm (picks : List Nat) (w : World) : World :=
  detachReads w.rxQueue.length picks w

/-! ## The pool -/

/-- `m_CaptureIoPool[m_CaptureIoFreeCount++] = io`. -/
def pushCaptureIo (io : Option PcmIo) (w : World) : World :=
  { w with
    captureIoPool := Function.update w.captureIoPool w.captureIoFreeCount io
    captureIoFreeCount := w.captureIoFreeCount + 1
    history := match io with
      | none => w.history
      | some io => .pooled io :: w.history }

/-- `io = m_CaptureIoPool[--m_CaptureIoFreeCount]`, and the slot is cleared. -/
def popCaptureIo (w : World) : Option PcmIo × World :=
  (w.captureIoPool (w.captureIoFreeCount - 1),
    { w with
      captureIoPool := Function.update w.captureIoPool (w.captureIoFreeCount - 1) none
      captureIoFreeCount := w.captureIoFreeCount - 1 })

/-- The loop of `FreeCaptureIoPool` with `n` buffers left in the pool. -/
def freeCaptureIos : Nat → World → World
  | 0, w => w
  | n + 1, w =>
      let popped := popCaptureIo w
      freeCaptureIos n (viosndFreeReadPcmIo popped.1 popped.2)

def freeCaptureIoPool (w : World) : World :=
  if w.captureInFlight ≠ 0 then w else freeCaptureIos w.captureIoFreeCount w

/-- The loop of `AllocateCaptureIoPool` with `n` buffers to go; `ios` says which allocations
succeed. -/
def allocateCaptureIos : Nat → List Bool → World → NtStatus × World
  | 0, _, w => (.success, w)
  | n + 1, true :: ios, w =>
      allocateCaptureIos n ios
        { pushCaptureIo (some ⟨w.nextIo, w.packetSize⟩) w with nextIo := w.nextIo + 1 }
  | _ + 1, _, w => (.insufficientResources, freeCaptureIoPool w)

def allocateCaptureIoPool (ios : List Bool) (w : World) : NtStatus × World :=
  if w.captureIoFreeCount ≠ 0 then (.success, w)
  else if w.packetSize = 0 then (.deviceNotReady, w)
  else allocateCaptureIos captureIoPoolSize ios w

/-! ## Packets -/

def submitCapturePacket (o : RxSubmit) (w : World) : NtStatus × World :=
  if w.buffer.isNone ∨ w.packetSize = 0 ∨ w.notificationCount = 0 then (.invalidDeviceRequest, w)
  else if w.captureIoFreeCount = 0 then (.deviceBusy, w)
  else if w.notificationCount.toNat ≤ w.captureInFlight then (.deviceBusy, w)
  else
    let popped := popCaptureIo w
    let r := viosndSubmitPreparedReadPcm w.packetSize w.nextSubmitPacket popped.1 o popped.2
    if r.1.isSuccess then
      (r.1, { r.2 with
        nextSubmitPacket := r.2.nextSubmitPacket + 1, captureInFlight := r.2.captureInFlight + 1 })
    else (r.1, pushCaptureIo popped.1 r.2)

/-- The slot of the packet in `m_Buffer` after a completion: the copied audio and zeros. -/
def storeAudio (w : World) (memory : Memory) (packetNumber bytesRead : ULONG) (audio : Memory) :
    Memory :=
  let offset := (packetNumber % w.notificationCount) * w.packetSize
  let copyLength := if bytesRead < w.packetSize then bytesRead else w.packetSize
  let copied := memory.write offset.toNat
    (viosndPcmCopyGain16 captureSoftwareGain (audio.slice 0 copyLength.toNat))
  if bytesRead < w.packetSize then
    copied.zero (offset.toNat + bytesRead.toNat) (w.packetSize - bytesRead).toNat
  else copied

/-- `m_OutstandingWrites = m_PacketNumber - m_NextReadPacket` and the overflow that follows. -/
def countReady (w : World) : World :=
  let ready := w.packetNumber - w.nextReadPacket
  if w.notificationCount < ready then
    let droppedPackets := ready - w.notificationCount
    { w with
      nextReadPacket := w.nextReadPacket + droppedPackets
      outstandingWrites := w.notificationCount
      captureOverflows := w.captureOverflows + droppedPackets
      history := .dropped w.nextReadPacket droppedPackets :: w.history }
  else { w with outstandingWrites := ready }

def completeCapture (entry : RxEntry) (bytesRead : ULONG) (audio : Memory) (w : World) : World :=
  countReady { w with
    buffer := w.buffer.map fun memory =>
      storeAudio w memory entry.packetNumber bytesRead audio
    packetNumber := entry.packetNumber + 1
    position := w.position + w.packetSize.setWidth 64
    history := .stored entry.packetNumber (audio.slice 0 bytesRead.toNat) :: w.history }

/-- A buffer that left the queue goes to the pool, or is freed when the pool is full. -/
def recycleCaptureIo (io : PcmIo) (w : World) : World :=
  if w.captureIoFreeCount < captureIoPoolSize then pushCaptureIo (some io) w
  else viosndFreeReadPcmIo (some io) w

def RxReclaim.audio : RxReclaim → Memory
  | .empty => fun _ => 0
  | .used _ _ _ audio => audio

/-- One pass of `ReclaimCapturePackets`; `true` when the loop goes on. -/
def reclaimCapturePacket (o : RxReclaim) (w : World) : Bool × World :=
  match viosndReclaimPreparedReadPcm o w with
  | (_, none, _, w) => (false, w)
  | (status, some entry, bytesRead, w) =>
      let w := { w with captureInFlight := w.captureInFlight - 1 }
      let w := if status.isSuccess then completeCapture entry bytesRead o.audio w
        else w.note (.failed entry.packetNumber)
      (true, recycleCaptureIo entry.io w)

/-- The loop; without an answer the used ring is empty. -/
def reclaimCapturePackets : List RxReclaim → World → World
  | [], w => w
  | o :: answers, w =>
      let r := reclaimCapturePacket o w
      if r.1 then reclaimCapturePackets answers r.2 else r.2

/-- `GetReadPacket`: status, packet number, `MoreData`. -/
def getReadPacket (w : World) : NtStatus × ULONG × Bool × World :=
  if w.buffer.isNone ∨ w.packetSize = 0 then (.invalidDeviceRequest, 0, false, w)
  else if w.state ≠ .run ∨ w.outstandingWrites = 0 then (.deviceNotReady, 0, false, w)
  else
    (.success, w.nextReadPacket, decide (w.outstandingWrites - 1 ≠ 0), { w with
      nextReadPacket := w.nextReadPacket + 1
      outstandingWrites := w.outstandingWrites - 1
      captureReadPackets := w.captureReadPackets + 1
      history := .handedOut w.nextReadPacket :: w.history })

/-- `GetPosition`: play and write offset. -/
def getPosition (w : World) : ULONGLONG × ULONGLONG :=
  if w.bufferSize = 0 then (0, 0)
  else
    let recordOffset := w.position % w.bufferSize.setWidth 64
    (recordOffset, recordOffset)

end Viosnd.Capture
