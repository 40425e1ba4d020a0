import Viosnd.Render.Worker

/-!
# State transitions of the render stream

`StartRenderWorker`, `StopRenderWorker`, `SetState` and `SetWritePacket` for `m_Capture = FALSE`,
and the runs of the stream. `SetState` and the worker overlap where the source lets them: before
the stop wait ends, after a wait that timed out, and in a thread `StartRenderWorker` loses track
of.
-/

namespace Viosnd.Render

open StepRun

/-! ## The worker thread -/

structure StartWorkerInput where
  pool : PoolInput
  createThread : NtStatus
  /-- Whether the wait in `Release` ends before its timeout. -/
  exited : Bool
  referenceObject : NtStatus

/-- `exited` is `false` when the wait for the thread times out. -/
def stopRenderWorker (exited : Bool) (w : World) : Bool × World :=
  if w.threadObject = false then (true, { w with workerStarted := false })
  else if exited = false then (false, w)
  else (true, freeRenderIoPool { w with threadObject := false, workerStarted := false })

/-- The reference taken for a thread that was not created is dropped by `Release`, which stops the
worker of a stream that has one. -/
def startRenderWorker (i : StartWorkerInput) (w : World) : NtStatus × World :=
  if w.workerStarted then (.success, w)
  else whenOk (allocateRenderIoPool i.pool w) fun w =>
    if i.createThread.isSuccess = false then
      (i.createThread, if w.threadObject then (stopRenderWorker i.exited w).2 else w)
    else if i.referenceObject.isSuccess = false then (i.referenceObject, w)
    else (.success, { w with threadObject := true, workerStarted := true })

/-! ## SetState -/

/-- Everything the environment decides during one `SetState` call. -/
structure SetStateInput where
  configure : ConfigureInput
  pool : PoolInput
  prerolls : List TxSubmit
  start : NtStatus
  worker : StartWorkerInput
  /-- Steps of a thread whose object could not be referenced, before STOP. -/
  lost : List WorkerStep
  /-- Its steps after RELEASE. -/
  lostLate : List WorkerStep
  /-- Worker steps while the call waits for the thread. -/
  stopping : List WorkerStep
  exited : Bool
  stop : NtStatus
  release : NtStatus
  /-- Worker steps after RELEASE, when the first wait timed out. -/
  lingering : List WorkerStep
  exitedLate : Bool
  cancel : CancelInput
  qpc : LONGLONG
  frequency : LONGLONG

/-- Every request is granted and the worker exits in time. -/
def SetStateInput.granted (qpc : LONGLONG) : SetStateInput where
  configure := ⟨.success, .success⟩
  pool := ⟨true, List.replicate renderIoPoolSize true⟩
  prerolls := [.queued, .queued]
  start := .success
  worker :=
    { pool := ⟨true, List.replicate renderIoPoolSize true⟩
      createThread := .success
      exited := true
      referenceObject := .success }
  lost := []
  lostLate := []
  stopping := []
  exited := true
  stop := .success
  release := .success
  lingering := []
  exitedLate := true
  cancel := ⟨[.empty], [.found 0, .found 0, .empty]⟩
  qpc := qpc
  frequency := 10000000

/-- The assignments at the head of the start path. -/
def beginRender (w : World) : World :=
  clearAnchor { w with
    renderPrerollPackets := if w.state = .stop then renderCyclicPrerollPackets else 0
    renderFallbackPhase := 0
    renderFallbackActive := false
    renderFallbackAttempted := false
    fallbackMonitorStartPosition := 0
    fallbackMonitorStartQpc := 0 }

/-- After START: anchor the clock, enter RUN and start the worker. -/
def launchWorker (i : SetStateInput) (w : World) : NtStatus × World :=
  startRenderWorker i.worker { anchorClock i.qpc i.frequency w with state := .run }

/-- A worker that cannot be started sends the stream back with STOP and RELEASE. -/
def launchRender (oldState : KsState) (i : SetStateInput) (w : World) : NtStatus × World :=
  let started := launchWorker i w
  if started.1.isSuccess then started
  else
    let w := run workerStep started.2 i.lost
    let w := (viosndReleasePcm i.release (viosndStopPcm i.stop w).2).2
    (started.1, { run workerStep w i.lostLate with state := oldState })

theorem launchRender_of_success {oldState : KsState} {i : SetStateInput} {w : World}
    (h : (launchWorker i w).1.isSuccess = true) :
    launchRender oldState i w = launchWorker i w := if_pos h

theorem launchRender_of_failure {oldState : KsState} {i : SetStateInput} {w : World}
    (h : (launchWorker i w).1.isSuccess ≠ true) :
    launchRender oldState i w = ((launchWorker i w).1,
      { run workerStep (viosndReleasePcm i.release (viosndStopPcm i.stop
          (run workerStep (launchWorker i w).2 i.lost)).2).2 i.lostLate with
        state := oldState }) := if_neg h

def abortRender (oldState : KsState) (i : SetStateInput) (w : World) : World :=
  { clearAnchor (freeRenderIoPool (cancelRenderWrites i.cancel w)) with state := oldState }

/-- The start path up to START: format, pool and preroll. -/
def prepareRender (i : SetStateInput) (w : World) : NtStatus × World :=
  whenOk (whenOk (viosndConfigurePcmFormat i.configure (beginRender w))
      (allocateRenderIoPool i.pool))
    fun w => whenOk (prerollRender renderStartPrerollPackets i.prerolls w)
      fun w => (.success, { w with renderPrerollPackets := 0 })

/-- `SetState(KSSTATE_RUN)` from another state. -/
def startRender (i : SetStateInput) (w : World) : NtStatus × World :=
  let r := whenOk (whenOk (prepareRender i w) (viosndStartPcm i.start)) (launchRender w.state i)
  if r.1.isSuccess then r else (r.1, abortRender w.state i r.2)

/-- The session fields `SetState(KSSTATE_STOP)` resets after a RUN period. -/
def resetSession (w : World) : World :=
  clearAnchor { w with
    packetNumber := 0
    lastOsWritePacket := maxULONG
    nextSubmitPacket := 0
    eosPacketNumber := maxULONG
    eosPacketLength := 0
    outstandingWrites := 0
    renderPrerollPackets := 0
    renderFallbackPhase := 0
    renderFallbackActive := false
    renderFallbackAttempted := false
    fallbackMonitorStartPosition := 0
    fallbackMonitorStartQpc := 0
    position := 0 }

/-- `m_State` is written and the worker, if there is one, is told to exit. -/
def awaitWorker (target : KsState) (i : SetStateInput) (w : World) : Bool × World :=
  let w := run workerStep { w with state := target } i.stopping
  if w.workerStarted then stopRenderWorker i.exited w else (true, w)

/-- A worker that did not exit in time is waited for once more. -/
def awaitWorkerAgain (stopped : Bool) (i : SetStateInput) (w : World) : Bool × World :=
  let w := if stopped then w else run workerStep w i.lingering
  if stopped = false ∧ w.workerStarted then stopRenderWorker i.exitedLate w else (stopped, w)

/-- STOP, RELEASE, the waits for the worker and the clean-up; the result says whether the worker
has stopped. -/
def quiesceRender (target : KsState) (i : SetStateInput) (w : World) : Bool × World :=
  let first := awaitWorker target i w
  let second := awaitWorkerAgain first.1 i
    (viosndReleasePcm i.release (viosndStopPcm i.stop first.2).2).2
  (second.1, freeRenderIoPool (cancelRenderWrites i.cancel second.2))

/-- `m_Position = GetRenderClockPosition()`, then the anchor is cleared. -/
def settlePosition (qpc : LONGLONG) (w : World) : World :=
  clearAnchor { w with
    position := getRenderClockPosition qpc w
    history := if w.runStartQpc = 0 ∨ w.qpcFrequency.toInt ≤ 0 then w.history
      else .counter qpc :: w.history }

/-- `SetState` from KSSTATE_RUN to another state. -/
def stopRender (target : KsState) (i : SetStateInput) (w : World) : NtStatus × World :=
  let quiet := quiesceRender target i w
  if quiet.1 then
    let w := settlePosition i.qpc quiet.2
    (.success, if target = .stop then resetSession w else w)
  else (.deviceBusy, { quiet.2 with state := .run })

def setState (target : KsState) (i : SetStateInput) (w : World) : NtStatus × World :=
  if target = .run ∧ w.state ≠ .run then startRender i w
  else if target ≠ .run ∧ w.state = .run then stopRender target i w
  else (.success, { w with state := target })

theorem setState_start (i : SetStateInput) (w : World) (hstate : w.state ≠ .run) :
    setState .run i w = startRender i w := if_pos ⟨rfl, hstate⟩

theorem setState_stop (target : KsState) (i : SetStateInput) (w : World) (htarget : target ≠ .run)
    (hstate : w.state = .run) : setState target i w = stopRender target i w := by
  unfold setState
  rw [if_neg fun h => htarget h.1, if_pos ⟨htarget, hstate⟩]

/-- Between two states other than RUN, and from RUN to RUN, only `m_State` is written. -/
theorem setState_other (target : KsState) (i : SetStateInput) (w : World)
    (hboth : target = .run ↔ w.state = .run) :
    setState target i w = (.success, { w with state := target }) := by
  unfold setState
  rw [if_neg fun h => h.2 (hboth.mp h.1), if_neg fun h => h.1 (hboth.mpr h.2)]

/-! ## SetWritePacket -/

/-- `endOfStream` is the ENDOFSTREAM bit of the flags. -/
def setWritePacket (packetNumber : ULONG) (endOfStream : Bool) (eosPacketLength : ULONG)
    (w : World) : NtStatus × World :=
  if w.buffer.isNone ∨ w.packetSize = 0 then (.invalidDeviceRequest, w)
  else
    let w := { w with
      nextSubmitPacket := if w.lastOsWritePacket = maxULONG then packetNumber
        else w.nextSubmitPacket
      lastOsWritePacket := packetNumber
      history := .wrote packetNumber :: w.history }
    (.success,
      if endOfStream then { w with
        eosPacketNumber := packetNumber
        eosPacketLength := if w.packetSize < eosPacketLength then w.packetSize
          else eosPacketLength }
      else if w.eosPacketNumber ≠ maxULONG ∧
          viosndPacketNumberLessOrEqual w.eosPacketNumber packetNumber then
        { w with eosPacketNumber := maxULONG, eosPacketLength := 0 }
      else w)

/-! ## Position queries -/

/-- The clock position a query starts from, reported to the client that asked. -/
def queryClock (qpc : LONGLONG) (w : World) : World :=
  let w := if w.runStartQpc = 0 ∨ w.qpcFrequency.toInt ≤ 0 then w else w.note (.counter qpc)
  w.note (.reported (getRenderClockPosition qpc w))

/-- `GetOutputStreamPresentationPosition`: the position in blocks. -/
def getOutputStreamPresentationPosition (qpc : LONGLONG) (w : World) : ULONGLONG × World :=
  (getRenderClockPosition qpc w / blockAlign, queryClock qpc w)

/-- `GetPosition`: play and write offsets in the buffer. -/
def getPosition (qpc : LONGLONG) (w : World) : (ULONGLONG × ULONGLONG) × World :=
  if w.bufferSize = 0 then ((0, 0), w)
  else
    let playOffset := getRenderClockPosition qpc w % w.bufferSize.setWidth 64
    let targetOutstanding :=
      if w.renderFallbackActive then viosndFallbackTargetOutstandingPackets w.notificationCount
      else if w.lastOsWritePacket = maxULONG then
        viosndCyclicTargetOutstandingPackets w.notificationCount
      else viosndTargetOutstandingPackets w.notificationCount
    let lead : ULONGLONG := w.packetSize.setWidth 64 * BitVec.ofNat 64 (max targetOutstanding 1)
    let writeLead := if w.renderFallbackActive then lead * 3 else lead
    ((playOffset, (playOffset + writeLead) % w.bufferSize.setWidth 64), queryClock qpc w)

/-! ## Runs -/

/-- The steps of a run: calls of the OS and steps of worker threads. -/
inductive Action where
  | setState (target : KsState) (i : SetStateInput)
  | setWritePacket (packetNumber : ULONG) (endOfStream : Bool) (eosPacketLength : ULONG)
  | worker (s : WorkerStep)
  | getPosition (qpc : LONGLONG)
  | getPresentationPosition (qpc : LONGLONG)

def step (w : World) : Action → World
  | .setState target i => (setState target i w).2
  | .setWritePacket packetNumber endOfStream eosPacketLength =>
      (setWritePacket packetNumber endOfStream eosPacketLength w).2
  | .worker s => workerStep w s
  | .getPosition qpc => (getPosition qpc w).2
  | .getPresentationPosition qpc => (getOutputStreamPresentationPosition qpc w).2

@[simp] theorem step_setState (target : KsState) (i : SetStateInput) (w : World) :
    step w (.setState target i) = (setState target i w).2 := rfl

@[simp] theorem step_setWritePacket (packetNumber : ULONG) (endOfStream : Bool)
    (eosPacketLength : ULONG) (w : World) :
    step w (.setWritePacket packetNumber endOfStream eosPacketLength) =
      (setWritePacket packetNumber endOfStream eosPacketLength w).2 := rfl

@[simp] theorem step_worker (s : WorkerStep) (w : World) :
    step w (.worker s) = workerStep w s := rfl

end Viosnd.Render
