import Viosnd.Lib.Runs
import Viosnd.Render.Transfer

/-!
# The render worker and the byte clock

`GetRenderClockPosition`, `MaybeSwitchRenderFallback`, `SwitchRenderToFallback` and the body of
`RenderWorkerLoop`. The body is also cut into the steps between which other threads may run.
-/

namespace Viosnd.Render

/-! ## The clock -/

/-- Both position queries and the end of a RUN period read the position here; `qpc` is the
counter value, which is not read when no RUN period is anchored. -/
def getRenderClockPosition (qpc : LONGLONG) (w : World) : ULONGLONG :=
  if w.runStartQpc = 0 ∨ w.qpcFrequency.toInt ≤ 0 then w.position
  else w.runStartPosition + viosndRenderBytesFromQpc (qpc - w.runStartQpc) w.qpcFrequency

/-- `m_RunStartPosition = m_Position` with a fresh reading of counter and frequency. -/
def anchorClock (qpc frequency : LONGLONG) (w : World) : World :=
  { w with
    runStartPosition := w.position
    runStartQpc := qpc
    qpcFrequency := frequency
    history := .counter qpc :: w.history }

/-- The three fields of the anchor are cleared together. -/
def clearAnchor (w : World) : World :=
  { w with runStartPosition := 0, runStartQpc := 0, qpcFrequency := 0 }

/-! ## The fallback switch -/

structure SwitchInput where
  stop : NtStatus
  release : NtStatus
  cancel : CancelInput
  configure : ConfigureInput
  prerolls : List TxSubmit
  start : NtStatus
  qpc : LONGLONG
  frequency : LONGLONG

/-- Every request is granted and no buffer has come back yet. -/
def SwitchInput.granted (qpc : LONGLONG) : SwitchInput where
  stop := .success
  release := .success
  cancel := ⟨[.empty], [.found 0, .found 0, .empty]⟩
  configure := ⟨.success, .success⟩
  prerolls := [.queued, .queued]
  start := .success
  qpc := qpc
  frequency := 10000000

/-- STOP, RELEASE and the clean-up at the head of `SwitchRenderToFallback`. -/
def haltForFallback (i : SwitchInput) (w : World) : World :=
  let stopped := viosndStopPcm i.stop { w with renderFallbackAttempted := true }
  cancelRenderWrites i.cancel (viosndReleasePcm i.release stopped.2).2

/-- Format and preroll of the fallback stream. -/
def prepareFallback (i : SwitchInput) (w : World) : NtStatus × World :=
  whenOk (viosndConfigurePcmFormat i.configure { w with
      renderFallbackActive := true, renderFallbackPhase := viosndFallbackInitialPhase })
    (prerollRender renderStartPrerollPackets i.prerolls)

/-- The second half of `SwitchRenderToFallback`, after STOP and RELEASE were accepted. -/
def startFallback (i : SwitchInput) (w : World) : NtStatus × World :=
  let r := whenOk (prepareFallback i w) (viosndStartPcm i.start)
  if r.1.isSuccess then
    (.success, { anchorClock i.qpc i.frequency r.2 with
      fallbackMonitorStartQpc := 0, fallbackMonitorStartPosition := 0 })
  else (r.1, { r.2 with renderFallbackActive := false })

def switchRenderToFallback (i : SwitchInput) (w : World) : NtStatus × World :=
  if i.stop.isSuccess ∧ i.release.isSuccess then startFallback i (haltForFallback i w)
  else (if i.stop.isSuccess then i.release else i.stop, haltForFallback i w)

/-- The verdict of `MaybeSwitchRenderFallback` on a measuring period that has begun. -/
inductive FallbackVerdict where
  | wait
  | healthy
  | slow
  deriving DecidableEq, Repr

def fallbackVerdict (w : World) (qpc : LONGLONG) : FallbackVerdict :=
  let elapsedQpc := qpc - w.fallbackMonitorStartQpc
  if elapsedQpc.toInt ≤ 0 then .wait
  else if elapsedQpc * 1000 / w.qpcFrequency < fallbackMonitorMs then .wait
  else
    let completedBytes := w.position - w.fallbackMonitorStartPosition
    let expectedBytes := elapsedQpc * bytesPerSecond / w.qpcFrequency
    if expectedBytes = 0 then .wait
    else if expectedBytes * fallbackTriggerPercent ≤ completedBytes * 100 then .healthy
    else .slow

/-- `MaybeSwitchRenderFallback`; `qpc` is its own reading, the other inputs serve the switch. -/
def maybeSwitchRenderFallback (qpc : LONGLONG) (i : SwitchInput) (w : World) : World :=
  if w.renderFallbackAttempted ∨ w.state ≠ .run ∨ w.qpcFrequency.toInt ≤ 0 then w
  else
    let w := w.note (.counter qpc)
    if w.fallbackMonitorStartQpc = 0 then
      { w with fallbackMonitorStartQpc := qpc, fallbackMonitorStartPosition := w.position }
    else match fallbackVerdict w qpc with
      | .wait => w
      | .healthy =>
          if w.renderFallbackActive then
            { w with fallbackMonitorStartQpc := qpc, fallbackMonitorStartPosition := w.position }
          else { w with renderFallbackAttempted := true }
      | .slow => (switchRenderToFallback i w).2

/-- The conditions under which `MaybeSwitchRenderFallback` switches. -/
def SwitchDue (qpc : LONGLONG) (w : World) : Prop :=
  w.renderFallbackAttempted = false ∧ w.state = .run ∧ 0 < w.qpcFrequency.toInt ∧
    w.fallbackMonitorStartQpc ≠ 0 ∧ fallbackVerdict w qpc = .slow

theorem maybeSwitchRenderFallback_due (qpc : LONGLONG) (i : SwitchInput) (w : World)
    (hdue : SwitchDue qpc w) :
    maybeSwitchRenderFallback qpc i w = (switchRenderToFallback i (w.note (.counter qpc))).2 := by
  obtain ⟨hattempted, hstate, hfrequency, hmonitor, hslow⟩ := hdue
  have hverdict : fallbackVerdict (w.note (.counter qpc)) qpc = .slow := hslow
  have hgo : ¬ (w.renderFallbackAttempted ∨ w.state ≠ .run ∨ w.qpcFrequency.toInt ≤ 0) := by
    rintro (h | h | h)
    · rw [hattempted] at h
      cases h
    · exact h hstate
    · omega
  unfold maybeSwitchRenderFallback
  rw [if_neg hgo]
  dsimp only
  have hmonitor' : (w.note (.counter qpc)).fallbackMonitorStartQpc ≠ 0 := hmonitor
  rw [if_neg hmonitor', hverdict]

/-! ## The loop body -/

/-- The checks before the submission loop; `continue` leaves nothing to submit. -/
def chooseTarget (w : World) : World :=
  if w.state ≠ .run ∨ w.buffer.isNone ∨ w.packetSize = 0 then { w with targetOutstanding := 0 }
  else { w with
    targetOutstanding :=
      if w.renderFallbackActive then
        viosndFallbackTargetOutstandingPackets w.notificationCount
      else if w.lastOsWritePacket = maxULONG then
        viosndCyclicTargetOutstandingPackets w.notificationCount
      else viosndTargetOutstandingPackets w.notificationCount }

/-- The body of the submission loop; `true` when the loop goes on. -/
def submitNext (o : TxSubmit) (w : World) : Bool × World :=
  if viosndHasWritableRenderPacket w.nextSubmitPacket w.lastOsWritePacket then
    let packetLength :=
      if w.eosPacketNumber = w.nextSubmitPacket then w.eosPacketLength else w.packetSize
    let r := submitRenderPacket w.nextSubmitPacket packetLength o w
    (r.1.isSuccess, r.2)
  else if w.lastOsWritePacket = maxULONG then
    if w.renderPrerollPackets ≠ 0 then
      let r := submitRenderSilencePacket w.nextSubmitPacket o w
      (r.1.isSuccess, if r.1.isSuccess then
        { r.2 with renderPrerollPackets := r.2.renderPrerollPackets - 1 } else r.2)
    else
      let r := submitRenderPacket w.nextSubmitPacket w.packetSize o w
      (r.1.isSuccess, r.2)
  else (false, w)

def submitPass (o : TxSubmit) (w : World) : Bool × World :=
  if w.state = .run ∧ w.outstandingWrites < w.targetOutstanding then submitNext o w else (false, w)

/-- A pass that read `m_State` before another thread changed it. -/
def submitLate (o : TxSubmit) (w : World) : World :=
  if w.outstandingWrites < w.targetOutstanding then (submitNext o w).2 else w

/-- The submission loop; a pass without an answer finds the TX mutex busy and is the last. -/
def submitPasses : List TxSubmit → World → World
  | [], w => (submitPass .mutexTimeout w).2
  | o :: answers, w =>
      let r := submitPass o w
      if r.1 then submitPasses answers r.2 else r.2

structure WorkerInput where
  reclaims : List TxReclaim
  qpc : LONGLONG
  switch : SwitchInput
  submits : List TxSubmit

/-- One turn of the loop in `RenderWorkerLoop`. Polling the event queue and kicking a stalled TX
queue leave the stream alone. -/
def renderWorkerTurn (i : WorkerInput) (w : World) : World :=
  submitPasses i.submits (chooseTarget
    (maybeSwitchRenderFallback i.qpc i.switch (reclaimRenderPackets i.reclaims w)))

/-! ## Steps of the worker -/

/-- The pieces of a turn. Between two of them any other thread may run. -/
inductive WorkerStep where
  | reclaim (o : TxReclaim)
  | maybeSwitch (qpc : LONGLONG) (i : SwitchInput)
  | chooseTarget
  | submit (o : TxSubmit)
  /-- `submit` with the test of `m_State` made earlier. -/
  | submitLate (o : TxSubmit)

def workerStep (w : World) : WorkerStep → World
  | .reclaim o => (reclaimRenderPacket o w).2
  | .maybeSwitch qpc i => maybeSwitchRenderFallback qpc i w
  | .chooseTarget => chooseTarget w
  | .submit o => (submitPass o w).2
  | .submitLate o => submitLate o w

open StepRun

theorem reclaimRenderPackets_steps (answers : List TxReclaim) (w : World) :
    ∃ steps : List TxReclaim,
      reclaimRenderPackets answers w = run workerStep w (steps.map .reclaim) := by
  induction answers generalizing w with
  | nil => exact ⟨[], rfl⟩
  | cons o answers ih =>
      unfold reclaimRenderPackets
      by_cases hmore : (reclaimRenderPacket o w).1 = true
      · obtain ⟨steps, hsteps⟩ := ih (reclaimRenderPacket o w).2
        exact ⟨o :: steps, by simpa [hmore, workerStep] using hsteps⟩
      · exact ⟨[o], by simp [hmore, workerStep]⟩

private theorem submitPasses_steps (answers : List TxSubmit) (w : World) :
    ∃ steps : List TxSubmit, submitPasses answers w = run workerStep w (steps.map .submit) := by
  induction answers generalizing w with
  | nil => exact ⟨[.mutexTimeout], rfl⟩
  | cons o answers ih =>
      unfold submitPasses
      by_cases hmore : (submitPass o w).1 = true
      · obtain ⟨steps, hsteps⟩ := ih (submitPass o w).2
        exact ⟨o :: steps, by simpa [hmore, workerStep] using hsteps⟩
      · exact ⟨[o], by simp [hmore, workerStep]⟩

/-- A whole turn is a run of the pieces, so what the pieces preserve a turn preserves. -/
theorem renderWorkerTurn_steps (i : WorkerInput) (w : World) :
    ∃ steps, renderWorkerTurn i w = run workerStep w steps := by
  obtain ⟨reclaims, hr⟩ := reclaimRenderPackets_steps i.reclaims w
  obtain ⟨submits, hs⟩ := submitPasses_steps i.submits (chooseTarget
    (maybeSwitchRenderFallback i.qpc i.switch (reclaimRenderPackets i.reclaims w)))
  refine ⟨reclaims.map .reclaim ++ .maybeSwitch i.qpc i.switch :: .chooseTarget ::
    submits.map .submit, ?_⟩
  rw [run_append, ← hr, run_cons, run_cons]
  exact hs

end Viosnd.Render
