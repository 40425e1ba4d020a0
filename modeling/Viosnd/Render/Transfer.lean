import Viosnd.Render.World

/-!
# Submitting, reclaiming and cancelling render buffers

`SubmitRenderPacket`, `SubmitRenderSilencePacket`, `ReclaimRenderPackets` and
`CancelRenderWrites`. Loops that ask the TX queue take one answer for each pass; a pass without an
answer finds the TX mutex busy, or the used ring empty.
-/

namespace Viosnd.Render

/-! ## Submission -/

/-- The block a fallback submission collects from up to three packets. -/
structure FallbackBlock where
  audio : List Byte
  sourceLength : ULONG
  sources : List ULONG
  phase : ULONG

/-- The resampling loop of `SubmitRenderPacket` with `n` passes left, at packet
`packetNumber + i`. -/
def fallbackBlock (w : World) (memory : Memory) (packetNumber : ULONG) :
    Nat → ULONG → FallbackBlock → FallbackBlock
  | 0, _, block => block
  | n + 1, i, block =>
      let sourcePacket := packetNumber + i
      if ¬ block.audio.length < fallbackPeriodBytes.toNat then block
      else if w.lastOsWritePacket ≠ maxULONG ∧
          ¬ viosndPacketNumberLessOrEqual sourcePacket w.lastOsWritePacket then block
      else
        let eos : Bool := w.eosPacketNumber = sourcePacket
        let sourcePacketLength := if eos then w.eosPacketLength else w.packetSize
        let sourceOffset := packetOffset sourcePacket w.notificationCount w.packetSize
        let downsampled := viosndDownsampleStereo16
          (fallbackPeriodBytes.toNat - block.audio.length)
          (fun k => memory (sourceOffset.toNat + k)) sourcePacketLength fallbackSampleRate
          block.phase
        let block : FallbackBlock :=
          { audio := block.audio ++ downsampled.1
            sourceLength := block.sourceLength + sourcePacketLength
            sources := block.sources ++ [sourcePacket]
            phase := downsampled.2 }
        if eos then block else fallbackBlock w memory packetNumber n (i + 1) block

/-- What a submission sends: the block, or the status it gives up with. The fallback path carries
the phase on in `m_RenderFallbackPhase`. -/
def renderBlock (w : World) (memory : Memory) (packetNumber : ULONG) :
    Except NtStatus FallbackBlock :=
  if w.renderFallbackActive then
    if (w.renderFallbackBuffer.getD 0) < fallbackPeriodBytes then .error .deviceNotReady
    else
      let block := fallbackBlock w memory packetNumber 3 0 ⟨[], 0, [], w.renderFallbackPhase⟩
      if block.audio.length = 0 then .error .invalidBufferSize else .ok block
  else
    let offset := packetOffset packetNumber w.notificationCount w.packetSize
    .ok ⟨memory.slice offset.toNat w.packetSize.toNat, w.packetSize, [packetNumber],
      w.renderFallbackPhase⟩

/-- The end of both submit routines: take a buffer from the pool and queue it. A buffer the queue
refuses goes back to its place in the pool. -/
def submitPooled (audio : List Byte) (length sourceLength packetNumber : ULONG) (o : TxSubmit)
    (onSuccess : World → World) (w : World) : NtStatus × World :=
  let popped := popRenderIo w
  let r := viosndSubmitPreparedWritePcm audio length sourceLength packetNumber popped.1 o popped.2
  if r.1.isSuccess then
    let next := onSuccess r.2
    (r.1, { next with outstandingWrites := next.outstandingWrites + 1 })
  else (r.1, pushRenderIo popped.1 r.2)

/-- The tail of the slot is zeroed for a packet shorter than the slot. -/
def padSlot (memory : Memory) (w : World) (packetNumber packetLength : ULONG) : Memory :=
  if packetLength < w.packetSize then
    memory.zero ((packetOffset packetNumber w.notificationCount w.packetSize).toNat +
      packetLength.toNat) (w.packetSize - packetLength).toNat
  else memory

def submitRenderPacket (packetNumber packetLength : ULONG) (o : TxSubmit) (w : World) :
    NtStatus × World :=
  match w.buffer with
  | none => (.invalidDeviceRequest, w)
  | some memory =>
      if w.packetSize = 0 then (.invalidDeviceRequest, w)
      else if w.renderIoFreeCount = 0 then (.deviceBusy, w)
      else
        let memory := padSlot memory w packetNumber packetLength
        let w := { w with buffer := some memory }
        match renderBlock w memory packetNumber with
        | .error status => (status, w)
        | .ok block =>
            let length : ULONG :=
              if w.renderFallbackActive then BitVec.ofNat 32 block.audio.length else w.packetSize
            submitPooled block.audio length block.sourceLength packetNumber o
              (fun next => { next with
                nextSubmitPacket := packetNumber + BitVec.ofNat 32 block.sources.length
                history := .consumed block.sources :: next.history })
              { w with renderFallbackPhase := block.phase }

def submitRenderSilencePacket (packetNumber : ULONG) (o : TxSubmit) (w : World) :
    NtStatus × World :=
  match w.buffer with
  | none => (.invalidDeviceRequest, w)
  | some _ =>
      if w.packetSize = 0 then (.invalidDeviceRequest, w)
      else if w.renderIoFreeCount = 0 then (.deviceBusy, w)
      else
        let silenceLength := if w.renderFallbackActive then fallbackPeriodBytes else w.packetSize
        if defaultPeriodBytes < silenceLength then (.invalidBufferSize, w)
        else
          submitPooled (List.replicate silenceLength.toNat 0) silenceLength silenceLength
            packetNumber o
            (fun next => { next with
              nextSubmitPacket :=
                if packetNumber ≠ maxULONG then packetNumber + 1 else next.nextSubmitPacket })
            w

/-- The preroll loop of `SetState(RUN)` and of `SwitchRenderToFallback`, `n` packets to go. -/
def prerollRender : Nat → List TxSubmit → World → NtStatus × World
  | 0, _, w => (.success, w)
  | n + 1, answers, w =>
      if w.outstandingWrites < renderStartPrerollPackets then
        whenOk (submitRenderSilencePacket maxULONG (answers.headD .mutexTimeout) w)
          (prerollRender n answers.tail)
      else (.success, w)

/-! ## Reclaim -/

/-- `m_Position += bytes`. -/
def addPosition (bytes : ULONG) (w : World) : World :=
  { w with
    position := w.position + bytes.setWidth 64
    history := if w.position.toNat + bytes.toNat < 2 ^ 64 then w.history
      else .carried :: w.history }

/-- The counters a completion advances; a preroll buffer advances none. -/
def accountCompletion (entry : TxEntry) (w : World) : World :=
  if entry.packetNumber = maxULONG then w
  else
    let sourceBytes := if w.renderFallbackActive then entry.sourceLength else entry.audioLength
    let sourceBytes := if sourceBytes = 0 then entry.audioLength else sourceBytes
    let w := addPosition sourceBytes w
    { w with packetNumber := w.packetNumber + 1 }

/-- One pass of `ReclaimRenderPackets`; `true` when the loop goes on. -/
def reclaimRenderPacket (o : TxReclaim) (w : World) : Bool × World :=
  match viosndReclaimPreparedWritePcm o w with
  | (_, none, w) => (false, w)
  | (_, some entry, w) =>
      (true, recycleRenderIo entry.io
        (accountCompletion entry { w with outstandingWrites := w.outstandingWrites - 1 }))

def reclaimRenderPackets : List TxReclaim → World → World
  | [], w => w
  | o :: answers, w =>
      let r := reclaimRenderPacket o w
      if r.1 then reclaimRenderPackets answers r.2 else r.2

/-! ## Cancel -/

structure CancelInput where
  reclaims : List TxReclaim
  detaches : List TxDetach

/-- The detach loop of `CancelRenderWrites`. -/
def detachRenderWrites : List TxDetach → World → World
  | [], w => w
  | o :: answers, w =>
      if w.outstandingWrites = 0 then w
      else match viosndDetachUnusedWritePcm o w with
        | (_, none, w) => w
        | (_, some entry, w) =>
            detachRenderWrites answers (recycleRenderIo entry.io
              { w with outstandingWrites := w.outstandingWrites - 1 })

def cancelRenderWrites (i : CancelInput) (w : World) : World :=
  detachRenderWrites i.detaches (reclaimRenderPackets i.reclaims w)

end Viosnd.Render
