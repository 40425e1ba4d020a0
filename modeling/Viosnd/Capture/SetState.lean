import Viosnd.Lib.Runs
import Viosnd.Capture.World

/-!
# State transitions of the capture stream

The worker of `CaptureWorkerLoop`, `StartRenderWorker`, `StopRenderWorker` and `SetState` for
`m_Capture = TRUE`, and the runs of the stream. The worker runs on while `SetState` waits for it,
after a wait that timed out, and as a thread `StartRenderWorker` loses track of.
-/

namespace Viosnd.Capture

open StepRun

/-! ## The worker -/

/-- `targetOutstanding` of `CaptureWorkerLoop`. -/
def targetOutstanding (w : World) : Nat :=
  max (min captureTargetOutstandingPackets (min w.notificationCount.toNat captureIoPoolSize)) 1

def submitPass (o : RxSubmit) (w : World) : World :=
  if w.state ≠ .run ∨ w.buffer.isNone ∨ w.packetSize = 0 ∨ w.notificationCount = 0 then w
  else if w.captureInFlight < targetOutstanding w then (submitCapturePacket o w).2
  else w

inductive WorkerStep where
  /-- One pass of `ReclaimCapturePackets`. -/
  | reclaim (o : RxReclaim)
  | submit (o : RxSubmit)
  /-- `SubmitCapturePacket` with the tests before it made earlier. -/
  | submitLate (o : RxSubmit)

def workerStep (w : World) : WorkerStep → World
  | .reclaim o => (reclaimCapturePacket o w).2
  | .submit o => submitPass o w
  | .submitLate o => (submitCapturePacket o w).2

/-! ## The worker thread -/

structure StartWorkerInput where
  pool : List Bool
  createThread : NtStatus
  /-- Whether the wait in `Release` ends before its timeout. -/
  exited : Bool
  referenceObject : NtStatus

/-- `exited` is `false` when the wait for the thread times out: the thread is then left to itself
and capture is latched as faulted. -/
def stopRenderWorker (exited : Bool) (w : World) : Bool × World :=
  if w.threadObject = false then (true, { w with workerStarted := false })
  else if exited = false then
    (false, { w with captureFaulted := true, threadObject := false, workerStarted := false })
  else (true, freeCaptureIoPool { w with threadObject := false, workerStarted := false })

/-- The reference taken for a thread that was not created is dropped by `Release`, which stops the
worker of a stream that has one. -/
def startRenderWorker (i : StartWorkerInput) (w : World) : NtStatus × World :=
  if w.workerStarted then (.success, w)
  else whenOk (allocateCaptureIoPool i.pool w) fun w =>
    if i.createThread.isSuccess = false then
      (i.createThread, if w.threadObject then (stopRenderWorker i.exited w).2 else w)
    else if i.referenceObject.isSuccess = false then (i.referenceObject, w)
    else (.success, { w with threadObject := true, workerStarted := true })

/-! ## SetState -/

/-- Everything the environment decides during one `SetState` call. -/
structure SetStateInput where
  configure : ConfigureInput
  start : NtStatus
  worker : StartWorkerInput
  /-- Steps of a thread whose object could not be referenced, before STOP. -/
  lost : List WorkerStep
  stop : NtStatus
  /-- Its steps after STOP. -/
  lostLate : List WorkerStep
  /-- Worker steps while the call waits for the thread. -/
  stopping : List WorkerStep
  exited : Bool
  /-- Worker steps up to the end of RELEASE, when the wait timed out. -/
  lingering : List WorkerStep
  release : NtStatus
  /-- Worker steps between RELEASE and the reclaim. -/
  released : List WorkerStep
  reclaims : List RxReclaim
  /-- Worker steps between the reclaim and the detach. -/
  drained : List WorkerStep
  picks : List Nat
  /-- Worker steps between the detach and the reset of the counters. -/
  detached : List WorkerStep

/-- Every request is granted and the worker exits in time. -/
def SetStateInput.granted : SetStateInput where
  configure := ⟨.success, .success⟩
  start := .success
  worker :=
    { pool := List.replicate captureIoPoolSize true
      createThread := .success
      exited := true
      referenceObject := .success }
  lost := []
  stop := .success
  lostLate := []
  stopping := []
  exited := true
  lingering := []
  release := .success
  released := []
  reclaims := []
  drained := []
  picks := []
  detached := []

def beginCapture (w : World) : World :=
  { w with
    packetNumber := 0
    nextSubmitPacket := 0
    nextReadPacket := 0
    outstandingWrites := 0
    captureInFlight := 0
    captureOverflows := 0
    captureReadPackets := 0
    position := 0
    history := .begun :: w.history }

/-- A worker that cannot be started sends the stream back with STOP. -/
def launchCapture (oldState : KsState) (i : SetStateInput) (w : World) : NtStatus × World :=
  let started := startRenderWorker i.worker { w with state := .run }
  if started.1.isSuccess then started
  else
    let w := run workerStep started.2 i.lost
    let w := run workerStep (viosndPcmCommand .stop i.stop w).2 i.lostLate
    (started.1, { w with state := oldState })

/-- `SetState(KSSTATE_RUN)` from another state. -/
def startCapture (i : SetStateInput) (w : World) : NtStatus × World :=
  if w.captureFaulted then (.deviceNotReady, w)
  else
    let r := whenOk (viosndConfigureDefaultPcm i.configure (beginCapture w))
      (viosndPcmCommand .start i.start)
    if r.1.isSuccess then launchCapture w.state i r.2
    else (r.1, { r.2 with state := w.state })

/-- The reclaim and the detach that follow an accepted RELEASE. -/
def drainCapture (i : SetStateInput) (w : World) : World :=
  let w := reclaimCapturePackets i.reclaims (run workerStep w i.released)
  viosndDetachUnusedReadPcm i.picks (run workerStep w i.drained)

/-- What follows an accepted RELEASE; the result says whether PREPARE succeeded. -/
def releaseCapture (i : SetStateInput) (w : World) : Bool × World :=
  let w := run workerStep (drainCapture i w) i.detached
  let w := freeCaptureIoPool { w with captureInFlight := 0, outstandingWrites := 0 }
  let r := viosndConfigureDefaultPcm i.configure w
  (r.1.isSuccess, r.2)

/-- RELEASE and the clean-up of a stop; capture is latched as faulted unless all of it succeeds. -/
def quiesceCapture (stopped : Bool) (i : SetStateInput) (w : World) : World :=
  let r := viosndPcmCommand .release i.release w
  let done := if r.1.isSuccess then releaseCapture i r.2 else (false, r.2)
  { done.2 with captureFaulted := done.2.captureFaulted || !(stopped && done.1) }

/-- The session fields `SetState(KSSTATE_STOP)` resets. -/
def resetSession (w : World) : World :=
  { w with
    packetNumber := 0
    nextSubmitPacket := 0
    nextReadPacket := 0
    outstandingWrites := 0
    position := 0 }

/-- `SetState` from KSSTATE_RUN to another state. -/
def stopCapture (target : KsState) (i : SetStateInput) (w : World) : NtStatus × World :=
  let w := run workerStep { w with state := target } i.stopping
  let waited := if w.workerStarted then stopRenderWorker i.exited w else (true, w)
  let w := quiesceCapture waited.1 i (run workerStep waited.2 i.lingering)
  (.success, if target = .stop then resetSession w else w)

def setState (target : KsState) (i : SetStateInput) (w : World) : NtStatus × World :=
  if target = .run ∧ w.state ≠ .run then startCapture i w
  else if target ≠ .run ∧ w.state = .run then stopCapture target i w
  else (.success, { w with state := target })

/-! ## Runs -/

/-- The steps of a run: calls of the OS and steps of worker threads. -/
inductive Action where
  | setState (target : KsState) (i : SetStateInput)
  | worker (s : WorkerStep)
  | getReadPacket

def step (w : World) : Action → World
  | .setState target i => (setState target i w).2
  | .worker s => workerStep w s
  | .getReadPacket => (getReadPacket w).2.2.2

end Viosnd.Capture
