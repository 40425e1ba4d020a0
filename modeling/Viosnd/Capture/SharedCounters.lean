import Viosnd.Capture.Integrity

/-!
# The counters the reader and the worker share

`GetReadPacket` runs on the client's thread and `ReclaimCapturePackets` on the worker's. Both
change `m_NextReadPacket` and `m_OutstandingWrites`, and no lock is taken. Here each is cut at its
accesses to the two counters.
-/

namespace Viosnd.Capture

open StepRun EffectSystem LossyWindow

/-! ## The accesses -/

/-- How far a call of `GetReadPacket` has come. -/
inductive ReadPlace where
  | idle
  /-- It passed its tests. -/
  | tested
  /-- It holds the value of `m_NextReadPacket` and has not stored the next one. -/
  | next (packet : ULONG)
  | ready
  /-- It holds the value of `m_OutstandingWrites` that it will decrement. -/
  | down (outstanding : ULONG)
  deriving DecidableEq

/-- The accesses of the call to the counters are all to come, or all done. -/
def ReadPlace.Outside (r : ReadPlace) : Prop := r = .idle ∨ r = .tested

instance (r : ReadPlace) : Decidable r.Outside :=
  inferInstanceAs (Decidable (r = .idle ∨ r = .tested))

inductive CountPlace where
  | idle
  /-- It holds `m_PacketNumber - m_NextReadPacket`, not stored yet. -/
  | ready (io : PcmIo) (count : ULONG)
  /-- Before the comparison with `m_NotificationCount`. -/
  | test (io : PcmIo)
  /-- Before the read for `droppedPackets`. -/
  | excess (io : PcmIo)
  | drop (io : PcmIo) (droppedPackets : ULONG)
  /-- It holds the value of `m_NextReadPacket` that it will advance. -/
  | advance (io : PcmIo) (droppedPackets next : ULONG)
  | cap (io : PcmIo) (droppedPackets next : ULONG)
  deriving DecidableEq

structure SharedWorld where
  world : World
  reader : ReadPlace
  worker : CountPlace

def SharedWorld.fresh (allocated : Option ULONG) : SharedWorld :=
  ⟨World.fresh allocated, .idle, .idle⟩

/-- The tests at the head of `GetReadPacket`. -/
def CanRead (w : World) : Prop :=
  ¬ (w.buffer.isNone ∨ w.packetSize = 0) ∧ ¬ (w.state ≠ .run ∨ w.outstandingWrites = 0)

instance (w : World) : Decidable (CanRead w) :=
  inferInstanceAs (Decidable (¬ _ ∧ ¬ _))

/-- The next access of `GetReadPacket`. -/
def readStep (w : SharedWorld) : SharedWorld :=
  match w.reader with
  | .idle => if CanRead w.world then { w with reader := .tested } else w
  | .tested => { w with
      world := w.world.note (.handedOut w.world.nextReadPacket)
      reader := .next w.world.nextReadPacket }
  | .next packet => { w with
      world := { w.world with nextReadPacket := packet + 1 }
      reader := .ready }
  | .ready => { w with reader := .down w.world.outstandingWrites }
  | .down outstanding => { w with
      world := { w.world with
        outstandingWrites := outstanding - 1
        captureReadPackets := w.world.captureReadPackets + 1 }
      reader := .idle }

/-- `m_OutstandingWrites = m_NotificationCount` and `m_CaptureOverflows += droppedPackets`. -/
def capReady (droppedPackets next : ULONG) (w : World) : World :=
  { w with
    outstandingWrites := w.notificationCount
    captureOverflows := w.captureOverflows + droppedPackets
    history := .dropped next droppedPackets :: w.history }

def countStep (w : SharedWorld) : SharedWorld :=
  match w.worker with
  | .idle => w
  | .ready io count => { w with
      world := { w.world with outstandingWrites := count }
      worker := .test io }
  | .test io =>
      if w.world.notificationCount < w.world.outstandingWrites then { w with worker := .excess io }
      else { w with world := recycleCaptureIo io w.world, worker := .idle }
  | .excess io => { w with
      worker := .drop io (w.world.outstandingWrites - w.world.notificationCount) }
  | .drop io droppedPackets => { w with
      worker := .advance io droppedPackets w.world.nextReadPacket }
  | .advance io droppedPackets next => { w with
      world := { w.world with nextReadPacket := next + droppedPackets }
      worker := .cap io droppedPackets next }
  | .cap io droppedPackets next => { w with
      world := recycleCaptureIo io (capReady droppedPackets next w.world)
      worker := .idle }

def storeCapture (entry : RxEntry) (bytesRead : ULONG) (audio : Memory) (w : World) : World :=
  { w with
    buffer := w.buffer.map fun memory =>
      storeAudio w memory entry.packetNumber bytesRead audio
    packetNumber := entry.packetNumber + 1
    position := w.position + w.packetSize.setWidth 64
    history := .stored entry.packetNumber (audio.slice 0 bytesRead.toNat) :: w.history }

/-- One pass of `ReclaimCapturePackets`; a successful completion is left where the counting has
read `m_NextReadPacket`. -/
def startReclaim (o : RxReclaim) (w : World) : CountPlace × World :=
  match viosndReclaimPreparedReadPcm o w with
  | (_, none, _, w) => (.idle, w)
  | (status, some entry, bytesRead, w) =>
      let w := { w with captureInFlight := w.captureInFlight - 1 }
      if status.isSuccess then
        let w := storeCapture entry bytesRead o.audio w
        (.ready entry.io (w.packetNumber - w.nextReadPacket), w)
      else (.idle, recycleCaptureIo entry.io (w.note (.failed entry.packetNumber)))

def startWorkerStep (w : World) : WorkerStep → CountPlace × World
  | .reclaim o => startReclaim o w
  | s => (.idle, workerStep w s)

/-- What follows the read for `m_NextReadPacket += droppedPackets`. -/
def dropReady (droppedPackets next : ULONG) (w : World) : World :=
  capReady droppedPackets next { w with nextReadPacket := next + droppedPackets }

/-- The comparison with `m_NotificationCount` and what follows it. -/
def testReady (w : World) : World :=
  if w.notificationCount < w.outstandingWrites then
    dropReady (w.outstandingWrites - w.notificationCount) w.nextReadPacket w
  else w

/-- What is left of the counting, in one go. -/
def finishCount : CountPlace → World → World
  | .idle, w => w
  | .ready io count, w => recycleCaptureIo io (testReady { w with outstandingWrites := count })
  | .test io, w => recycleCaptureIo io (testReady w)
  | .excess io, w =>
      recycleCaptureIo io
        (dropReady (w.outstandingWrites - w.notificationCount) w.nextReadPacket w)
  | .drop io droppedPackets, w =>
      recycleCaptureIo io (dropReady droppedPackets w.nextReadPacket w)
  | .advance io droppedPackets next, w => recycleCaptureIo io (dropReady droppedPackets next w)
  | .cap io droppedPackets next, w => recycleCaptureIo io (capReady droppedPackets next w)

inductive SharedAction where
  | setState (target : KsState) (i : SetStateInput)
  /-- A step of the worker, up to the counting of a completion. -/
  | worker (s : WorkerStep)
  /-- The next access of the counting. -/
  | count
  /-- The next access of `GetReadPacket`. -/
  | read

/-- The client makes one call at a time, and a stop waits for the completion in progress; the
worker counts one completion before its next step. -/
def sharedStep (w : SharedWorld) : SharedAction → SharedWorld
  | .setState target i =>
      if w.reader ≠ .idle then w
      else if w.world.state = .run then
        { w with world := (setState target i (finishCount w.worker w.world)).2, worker := .idle }
      else { w with world := (setState target i w.world).2 }
  | .worker s =>
      if w.worker ≠ .idle then w
      else { w with
        world := (startWorkerStep w.world s).2
        worker := (startWorkerStep w.world s).1 }
  | .count => countStep w
  | .read => readStep w

/-- The accesses of a call of `GetReadPacket` and of the counting of a completion do not overlap,
and a start comes when no completion is being counted. -/
def ApartGuard (w : SharedWorld) : SharedAction → Prop
  | .setState target _ => target = .run → w.world.state ≠ .run → w.worker = .idle
  | .worker s => (startWorkerStep w.world s).1 ≠ .idle → w.reader.Outside
  | .count => True
  | .read => w.reader = .tested → w.worker = .idle

instance (w : SharedWorld) (a : SharedAction) : Decidable (ApartGuard w a) :=
  match a with
  | .setState target _ =>
      inferInstanceAs (Decidable (target = .run → w.world.state ≠ .run → w.worker = .idle))
  | .worker s =>
      inferInstanceAs (Decidable ((startWorkerStep w.world s).1 ≠ .idle → w.reader.Outside))
  | .count => inferInstanceAs (Decidable True)
  | .read => inferInstanceAs (Decidable (w.reader = .tested → w.worker = .idle))

/-! ## Calls that finish at once -/

/-- What is left of `GetReadPacket` behind its tests, in one go. -/
def finishRead : ReadPlace → World → World
  | .idle, w => w
  | .tested, w => w
  | .next packet, w => { w with
      nextReadPacket := packet + 1
      outstandingWrites := w.outstandingWrites - 1
      captureReadPackets := w.captureReadPackets + 1 }
  | .ready, w => { w with
      outstandingWrites := w.outstandingWrites - 1
      captureReadPackets := w.captureReadPackets + 1 }
  | .down outstanding, w => { w with
      outstandingWrites := outstanding - 1
      captureReadPackets := w.captureReadPackets + 1 }

/-- The world once the calls in progress are finished. -/
def SharedWorld.settled (w : SharedWorld) : World :=
  finishRead w.reader (finishCount w.worker w.world)

private theorem settled_outside {w : SharedWorld} (h : w.reader.Outside) :
    w.settled = finishCount w.worker w.world := by
  unfold SharedWorld.settled
  rcases h with hidle | htested
  · rw [hidle]
    rfl
  · rw [htested]
    rfl

private theorem countStep_reader (w : SharedWorld) : (countStep w).reader = w.reader := by
  obtain ⟨w, reader, worker⟩ := w
  cases worker with
  | test io =>
      unfold countStep
      dsimp only
      split <;> rfl
  | _ => rfl

private theorem countStep_finish (w : SharedWorld) :
    finishCount (countStep w).worker (countStep w).world = finishCount w.worker w.world := by
  obtain ⟨w, reader, worker⟩ := w
  cases worker with
  | test io =>
      by_cases hlong : w.notificationCount < w.outstandingWrites
      · simp only [countStep, finishCount, testReady, if_pos hlong]
      · simp only [countStep, finishCount, testReady, if_neg hlong]
  | _ => rfl

private theorem startReclaim_finish (o : RxReclaim) (w : World) :
    finishCount (startReclaim o w).1 (startReclaim o w).2 = (reclaimCapturePacket o w).2 := by
  unfold startReclaim reclaimCapturePacket
  rcases viosndReclaimPreparedReadPcm o w with ⟨status, entry, bytesRead, w⟩
  cases entry with
  | none => rfl
  | some entry =>
      dsimp only
      split
      · rfl
      · rfl

private theorem startWorkerStep_finish (w : World) (s : WorkerStep) :
    finishCount (startWorkerStep w s).1 (startWorkerStep w s).2 = workerStep w s := by
  cases s with
  | reclaim o => exact startReclaim_finish o w
  | _ => rfl

/-- The counters of `GetReadPacket` get these values. -/
def setCounters (next outstanding reads : ULONG) (w : World) : World :=
  { w with nextReadPacket := next, outstandingWrites := outstanding, captureReadPackets := reads }

private theorem viosndSubmitPreparedReadPcm_setCounters (length packetNumber : ULONG)
    (io : Option PcmIo) (o : RxSubmit) (w : World) (next outstanding reads : ULONG) :
    viosndSubmitPreparedReadPcm length packetNumber io o (setCounters next outstanding reads w) =
      ((viosndSubmitPreparedReadPcm length packetNumber io o w).1, setCounters next outstanding
        reads (viosndSubmitPreparedReadPcm length packetNumber io o w).2) := by
  unfold viosndSubmitPreparedReadPcm
  cases io with
  | none => split <;> rfl
  | some io =>
      dsimp only
      split_ifs <;> rfl

private theorem submitCapturePacket_tests (o : RxSubmit) (w : World) :
    submitCapturePacket o w =
      if w.buffer.isNone ∨ w.packetSize = 0 ∨ w.notificationCount = 0 then
        (.invalidDeviceRequest, w)
      else if w.captureIoFreeCount = 0 ∨ w.notificationCount.toNat ≤ w.captureInFlight then
        (.deviceBusy, w)
      else
        let popped := popCaptureIo w
        let r := viosndSubmitPreparedReadPcm w.packetSize w.nextSubmitPacket popped.1 o popped.2
        if r.1.isSuccess then
          (r.1, { r.2 with
            nextSubmitPacket := r.2.nextSubmitPacket + 1
            captureInFlight := r.2.captureInFlight + 1 })
        else (r.1, pushCaptureIo popped.1 r.2) := by
  unfold submitCapturePacket
  by_cases hfree : w.captureIoFreeCount = 0
  · simp only [hfree, true_or, ↓reduceIte]
  · simp only [hfree, false_or, ↓reduceIte]

private theorem submitCapturePacket_setCounters (o : RxSubmit) (w : World)
    (next outstanding reads : ULONG) :
    (submitCapturePacket o (setCounters next outstanding reads w)).2 =
      setCounters next outstanding reads (submitCapturePacket o w).2 := by
  rw [submitCapturePacket_tests, submitCapturePacket_tests]
  by_cases hready : w.buffer.isNone ∨ w.packetSize = 0 ∨ w.notificationCount = 0
  · rw [if_pos hready]
    exact congrArg Prod.snd (if_pos hready)
  rw [if_neg hready]
  refine (congrArg Prod.snd (if_neg hready)).trans ?_
  by_cases hroom : w.captureIoFreeCount = 0 ∨ w.notificationCount.toNat ≤ w.captureInFlight
  · rw [if_pos hroom]
    exact congrArg Prod.snd (if_pos hroom)
  rw [if_neg hroom]
  refine (congrArg Prod.snd (if_neg hroom)).trans ?_
  have hpopped : popCaptureIo (setCounters next outstanding reads w) =
      ((popCaptureIo w).1, setCounters next outstanding reads (popCaptureIo w).2) := rfl
  have hsubmitted := viosndSubmitPreparedReadPcm_setCounters w.packetSize w.nextSubmitPacket
    (popCaptureIo w).1 o (popCaptureIo w).2 next outstanding reads
  rw [hpopped]
  dsimp only [setCounters] at hsubmitted ⊢
  rw [hsubmitted]
  split <;> rfl

private theorem recycleCaptureIo_setCounters (io : PcmIo) (w : World)
    (next outstanding reads : ULONG) :
    recycleCaptureIo io (setCounters next outstanding reads w) =
      setCounters next outstanding reads (recycleCaptureIo io w) := by
  unfold recycleCaptureIo
  by_cases hroom : w.captureIoFreeCount < captureIoPoolSize
  · rw [if_pos hroom]
    exact if_pos hroom
  · rw [if_neg hroom]
    exact if_neg hroom

private theorem submitPass_setCounters (o : RxSubmit) (w : World)
    (next outstanding reads : ULONG) :
    submitPass o (setCounters next outstanding reads w) =
      setCounters next outstanding reads (submitPass o w) := by
  have hsubmit := submitCapturePacket_setCounters o w next outstanding reads
  unfold submitPass
  by_cases hready : w.state ≠ .run ∨ w.buffer.isNone ∨ w.packetSize = 0 ∨ w.notificationCount = 0
  · rw [if_pos hready]
    exact if_pos hready
  rw [if_neg hready]
  refine (if_neg hready).trans ?_
  by_cases hroom : w.captureInFlight < targetOutstanding w
  · rw [if_pos hroom]
    exact (if_pos hroom).trans hsubmit
  · rw [if_neg hroom]
    exact if_neg hroom

private theorem reclaimCapturePacket_setCounters (o : RxReclaim) (w : World)
    (hs : (startReclaim o w).1 = .idle) (next outstanding reads : ULONG) :
    (reclaimCapturePacket o (setCounters next outstanding reads w)).2 =
      setCounters next outstanding reads (reclaimCapturePacket o w).2 := by
  have hreclaimed : viosndReclaimPreparedReadPcm o (setCounters next outstanding reads w) =
      ((viosndReclaimPreparedReadPcm o w).1, (viosndReclaimPreparedReadPcm o w).2.1,
        (viosndReclaimPreparedReadPcm o w).2.2.1,
        setCounters next outstanding reads (viosndReclaimPreparedReadPcm o w).2.2.2) := by
    cases o with
    | empty => rfl
    | used k usedLength statusOk audio =>
        unfold viosndReclaimPreparedReadPcm
        dsimp only [setCounters]
        cases w.rxQueue[k]? with
        | none => rfl
        | some entry =>
            dsimp only
            split <;> rfl
  unfold startReclaim at hs
  unfold reclaimCapturePacket
  rw [hreclaimed]
  generalize viosndReclaimPreparedReadPcm o w = answer at hs ⊢
  obtain ⟨status, entry, bytesRead, v⟩ := answer
  cases entry with
  | none => rfl
  | some entry =>
      dsimp only at hs ⊢
      by_cases hok : status.isSuccess = true
      · rw [if_pos hok] at hs
        cases hs
      · rw [if_neg hok, if_neg hok]
        exact recycleCaptureIo_setCounters entry.io
          ({ v with captureInFlight := v.captureInFlight - 1 }.note (.failed entry.packetNumber))
          next outstanding reads

/-- Away from the counting the worker leaves the counters of `GetReadPacket` alone, and does not
look at them. -/
private theorem workerStep_setCounters (w : World) (s : WorkerStep)
    (hs : (startWorkerStep w s).1 = .idle) (next outstanding reads : ULONG) :
    workerStep (setCounters next outstanding reads w) s =
      setCounters next outstanding reads (workerStep w s) := by
  cases s with
  | submitLate o => exact submitCapturePacket_setCounters o w next outstanding reads
  | submit o => exact submitPass_setCounters o w next outstanding reads
  | reclaim o =>
      exact reclaimCapturePacket_setCounters o w hs next outstanding reads

/-- Away from the counting a step of the worker can as well come after a read that is under
way. -/
private theorem finishRead_workerStep (r : ReadPlace) (w : World) (s : WorkerStep)
    (hs : (startWorkerStep w s).1 = .idle) :
    finishRead r (workerStep w s) = workerStep (finishRead r w) s := by
  have hsame := workerStep_setCounters w s hs w.nextReadPacket w.outstandingWrites
    w.captureReadPackets
  change workerStep w s = _ at hsame
  cases r with
  | idle => rfl
  | tested => rfl
  | next packet =>
      rw [hsame]
      exact (workerStep_setCounters w s hs (packet + 1) (w.outstandingWrites - 1)
        (w.captureReadPackets + 1)).symm
  | ready =>
      rw [hsame]
      exact (workerStep_setCounters w s hs w.nextReadPacket (w.outstandingWrites - 1)
        (w.captureReadPackets + 1)).symm
  | down outstanding =>
      rw [hsame]
      exact (workerStep_setCounters w s hs w.nextReadPacket (outstanding - 1)
        (w.captureReadPackets + 1)).symm

/-- A change of counters, of the pool or of the history. -/
structure SameSetting (w w' : World) : Prop where
  state : w'.state = w.state
  buffer : w'.buffer = w.buffer
  bufferSize : w'.bufferSize = w.bufferSize
  notificationCount : w'.notificationCount = w.notificationCount
  packetSize : w'.packetSize = w.packetSize

private theorem recycleCaptureIo_setting (io : PcmIo) {w w' : World} (h : SameSetting w w') :
    SameSetting w (recycleCaptureIo io w') := by
  obtain ⟨h1, h2, h3, h4, h5⟩ := h
  rw [recycleCaptureIo_eq]
  exact ⟨h1, h2, h3, h4, h5⟩

private theorem testReady_setting {w w' : World} (h : SameSetting w w') :
    SameSetting w (testReady w') := by
  obtain ⟨h1, h2, h3, h4, h5⟩ := h
  unfold testReady
  split
  · exact ⟨h1, h2, h3, h4, h5⟩
  · exact ⟨h1, h2, h3, h4, h5⟩

private theorem finishCount_setting (c : CountPlace) (w : World) :
    SameSetting w (finishCount c w) := by
  cases c with
  | idle => exact ⟨rfl, rfl, rfl, rfl, rfl⟩
  | ready io count =>
      exact recycleCaptureIo_setting io (testReady_setting ⟨rfl, rfl, rfl, rfl, rfl⟩)
  | test io =>
      exact recycleCaptureIo_setting io (testReady_setting ⟨rfl, rfl, rfl, rfl, rfl⟩)
  | _ => exact recycleCaptureIo_setting _ ⟨rfl, rfl, rfl, rfl, rfl⟩

private theorem settled_setting (w : SharedWorld) : SameSetting w.world w.settled := by
  obtain ⟨h1, h2, h3, h4, h5⟩ := finishCount_setting w.worker w.world
  unfold SharedWorld.settled
  cases w.reader <;> exact ⟨h1, h2, h3, h4, h5⟩

private theorem settled_idle {w : SharedWorld} (h : w.worker = .idle) :
    w.settled = finishRead w.reader w.world := by
  unfold SharedWorld.settled
  rw [h]
  rfl

private theorem sharedStep_worker {w : SharedWorld} (s : WorkerStep) (h : w.worker = .idle) :
    sharedStep w (.worker s) = { w with
      world := (startWorkerStep w.world s).2
      worker := (startWorkerStep w.world s).1 } :=
  if_neg (not_not_intro h)

/-- A step of the worker, with the completion it began, is a step of the worker on the settled
world. -/
private theorem settled_workerStep {w : SharedWorld} (s : WorkerStep) (hidle : w.worker = .idle)
    (hguard : (startWorkerStep w.world s).1 ≠ .idle → w.reader.Outside) :
    (sharedStep w (.worker s)).settled = workerStep w.settled s := by
  rw [sharedStep_worker s hidle, settled_idle hidle, SharedWorld.settled, startWorkerStep_finish]
  by_cases hs : (startWorkerStep w.world s).1 = .idle
  · exact finishRead_workerStep w.reader w.world s hs
  · rcases hguard hs with hreader | hreader
    · rw [hreader]
      rfl
    · rw [hreader]
      rfl

private theorem canRead_of {w : World} (hbuffer : w.buffer.isNone = false)
    (hsize : w.packetSize ≠ 0) (hstate : w.state = .run) (hout : w.outstandingWrites ≠ 0) :
    CanRead w := by
  constructor
  · rintro (hnone | hzero)
    · rw [hbuffer] at hnone
      cases hnone
    · exact hsize hzero
  · rintro (hstopped | hzero)
    · exact hstopped hstate
    · exact hout hzero

private theorem CanRead.call {w : World} (h : CanRead w) :
    getReadPacket w = (.success, w.nextReadPacket, decide (w.outstandingWrites - 1 ≠ 0), { w with
      nextReadPacket := w.nextReadPacket + 1
      outstandingWrites := w.outstandingWrites - 1
      captureReadPackets := w.captureReadPackets + 1
      history := .handedOut w.nextReadPacket :: w.history }) := by
  rw [getReadPacket, if_neg h.1, if_neg h.2]

/-! ## The invariant -/

/-- A call and a completion are apart, so the world in which they are finished is one of whole
calls; a call that passed its tests, or a completion, finds or leaves a packet to read. -/
structure SharedSound (w : SharedWorld) : Prop where
  apart : w.reader.Outside ∨ w.worker = .idle
  sized : Sized w.settled
  accounted : w.settled.state = .run → Orderly w.settled →
    Accounted w.settled ∧ CursorExact w.settled
  reading : w.reader ≠ .idle →
    w.settled.state = .run ∧ w.settled.buffer.isNone = false ∧ w.settled.packetSize ≠ 0
  unread : w.reader = .tested ∨ w.worker ≠ .idle → w.settled.state = .run →
    w.settled.packetSize ≠ 0 → Orderly w.settled → w.settled.outstandingWrites ≠ 0

private theorem completeCapture_unread (entry : RxEntry) (bytesRead : ULONG) (audio : Memory)
    (w : World) (hcount : w.notificationCount ≠ 0)
    (hnew : w.nextReadPacket ≠ entry.packetNumber + 1) :
    (completeCapture entry bytesRead audio w).outstandingWrites ≠ 0 := by
  unfold completeCapture countReady
  dsimp only
  split
  · exact hcount
  · intro hzero
    have hsame : w.nextReadPacket = entry.packetNumber + 1 := by bv_omega
    exact hnew hsame

private theorem startReclaim_completes (o : RxReclaim) (w : World)
    (hs : (startReclaim o w).1 ≠ .idle) :
    ∃ k entry bytesRead audio, (reclaimCapturePacket o w).2 =
      recycleCaptureIo entry.io (completeCapture entry bytesRead audio (takeRx k entry w)) := by
  cases o with
  | empty => exact absurd rfl hs
  | used k usedLength statusOk audio =>
      cases hk : w.rxQueue[k]? with
      | none =>
          simp only [startReclaim, viosndReclaimPreparedReadPcm, hk] at hs
          exact absurd rfl hs
      | some entry =>
          by_cases hfailed : usedLength < BitVec.ofNat 32 sizeofPcmStatus ∨ statusOk = false
          · simp only [startReclaim, viosndReclaimPreparedReadPcm, hk, if_pos hfailed] at hs
            exact absurd rfl hs
          · refine ⟨k, entry, deliveredLength entry usedLength, audio, ?_⟩
            simp only [reclaimCapturePacket, viosndReclaimPreparedReadPcm, hk, if_neg hfailed]
            rfl

private theorem workerStep_orderly (w : World) (s : WorkerStep) (h : Orderly (workerStep w s)) :
    Orderly w := by
  have hback : ∀ u, Does workerKinds w u → Orderly u → Orderly w := by
    intro u hdoes
    refine hdoes.invariant (P := fun u => Orderly u → Orderly w) ?_ id
    intro k hk u v hR hu hv
    obtain ⟨t, hbooking, hsame⟩ := hR.booking (Finset.mem_of_subset (by decide) hk)
    exact hu (hbooking.orderly (hsame.orderly.mp hv))
  exact hback _ (workerStep_does w s) h

private theorem workerStep_setting (w : World) (s : WorkerStep) :
    (workerStep w s).state = w.state ∧ (workerStep w s).buffer.isNone = w.buffer.isNone ∧
      (workerStep w s).packetSize = w.packetSize := by
  have hkeeps := (workerStep_does w s).keeps
    (fun w => (w.state, w.buffer.isNone, w.packetSize)) ?_
  · simp only [Prod.mk.injEq] at hkeeps
    exact hkeeps
  · intro k hk u v hR
    cases hR with
    | submit => rfl
    | refuse => rfl
    | fail => rw [recycleCaptureIo_eq]; rfl
    | complete =>
        rw [recycleCaptureIo_eq, completeCapture_eq]
        simp [takeRx]
    | _ => exact absurd hk (by decide)

section

variable {w : SharedWorld}

private theorem SharedSound.calls (h : SharedSound w) (a : Action)
    (hstate : (step w.settled a).state = .run) (horder : Orderly (step w.settled a)) :
    Accounted (step w.settled a) ∧ CursorExact (step w.settled a) :=
  accounted_sessionInvariant.afterStep w.settled a h.accounted hstate horder

private theorem SharedSound.setState (h : SharedSound w) (target : KsState) (i : SetStateInput)
    (hg : ApartGuard w (.setState target i)) : SharedSound (sharedStep w (.setState target i)) := by
  by_cases hreader : w.reader = .idle
  swap
  · rw [show sharedStep w (.setState target i) = w from if_pos hreader]
    exact h
  have houtside : w.reader.Outside := Or.inl hreader
  have hcall : sharedStep w (.setState target i) = if w.world.state = .run then
      { w with world := (Capture.setState target i (finishCount w.worker w.world)).2,
               worker := .idle }
      else { w with world := (Capture.setState target i w.world).2 } :=
    if_neg (not_not_intro hreader)
  -- a call that finds no completion in progress, or finishes it
  have hwhole : ∀ w' : SharedWorld, w'.reader = .idle → w'.worker = .idle →
      w'.world = step w.settled (.setState target i) → SharedSound w' := by
    intro w' hr hw hworld
    have hsettled : w'.settled = step w.settled (.setState target i) := by
      rw [settled_idle hw, hr]
      exact hworld
    refine ⟨Or.inr hw, ?_, ?_, fun hbusy => absurd hr hbusy, ?_⟩
    · rw [hsettled]
      exact step_sized _ _ h.sized
    · rw [hsettled]
      exact h.calls (.setState target i)
    · rintro (htested | hbusy)
      · rw [hr] at htested
        cases htested
      · exact absurd hw hbusy
  rw [hcall]
  by_cases hrun : w.world.state = .run
  · rw [if_pos hrun]
    exact hwhole _ hreader rfl (by rw [settled_outside houtside]; rfl)
  rw [if_neg hrun]
  by_cases hworker : w.worker = .idle
  · refine hwhole _ hreader hworker ?_
    rw [settled_idle hworker, hreader]
    rfl
  -- the state of a stopped stream changes while a completion is counted
  have htarget : target ≠ .run := fun htarget => hworker (hg htarget hrun)
  rw [setState_other target i w.world (iff_of_false htarget hrun)]
  have hnew := settled_setting { w with world := { w.world with state := target } }
  have hold := settled_setting w
  have hstopped : ({ w with world := { w.world with state := target } } :
      SharedWorld).settled.state ≠ .run := by
    rw [hnew.state]
    exact htarget
  refine ⟨Or.inl houtside, ?_, fun hs => absurd hs hstopped, fun hbusy => absurd hreader hbusy,
    fun _ hs => absurd hs hstopped⟩
  obtain ⟨hslots, hempty⟩ := h.sized
  rw [hold.bufferSize, hold.notificationCount, hold.packetSize] at hslots
  rw [hold.bufferSize, hold.packetSize] at hempty
  constructor
  · rw [hnew.bufferSize, hnew.notificationCount, hnew.packetSize]
    exact hslots
  · rw [hnew.bufferSize, hnew.packetSize]
    exact hempty

private theorem SharedSound.completed (h : SharedSound w) (s : WorkerStep)
    (hs : (startWorkerStep w.world s).1 ≠ .idle) (hworld : w.settled = w.world)
    (hstate : w.settled.state = .run) (hsize : w.settled.packetSize ≠ 0)
    (horder : Orderly (Capture.workerStep w.settled s)) :
    (Capture.workerStep w.settled s).outstandingWrites ≠ 0 := by
  have hsized := h.sized
  have haccounted := h.accounted hstate (workerStep_orderly w.settled s horder)
  rw [hworld] at hsized haccounted hsize horder ⊢
  obtain ⟨haccounted, -⟩ := haccounted
  cases s with
  | submit o => exact absurd rfl hs
  | submitLate o => exact absurd rfl hs
  | reclaim o =>
      obtain ⟨k, entry, bytesRead, audio, hpass⟩ := startReclaim_completes o w.world hs
      change Orderly (reclaimCapturePacket o w.world).2 at horder
      change (reclaimCapturePacket o w.world).2.outstandingWrites ≠ 0
      rw [hpass] at horder ⊢
      rw [recycleCaptureIo_eq]
      have htaken := (takeRx_orderly k entry w.world).mp
        ((completeCapture_orderly entry bytesRead audio _).mp
          ((recycleCaptureIo_same entry.io _).orderly.mp horder))
      refine completeCapture_unread entry bytesRead audio _ ?_ ?_
      · intro hnone
        have hslots := hsized.slots
        change w.world.notificationCount = 0 at hnone
        rw [hnone] at hslots
        exact hsize (hsized.empty (BitVec.eq_of_toNat_eq (by simpa using hslots)))
      · intro hsame
        change w.world.nextReadPacket = entry.packetNumber + 1 at hsame
        have hnumber := haccounted.number htaken.1
        have hready := haccounted.outstanding
        have hcompleted := haccounted.completed
        have hfew := htaken.2.2
        have hreturned := haccounted.returned
        unfold FewPackets at hfew
        obtain ⟨hlt, -⟩ := List.getElem?_eq_some_iff.mp htaken.1
        have hone : (1 : ULONG).toNat = 1 := rfl
        have hnext := congrArg BitVec.toNat hsame
        rw [BitVec.toNat_add_of_lt (by omega), hone] at hnext
        omega

private theorem SharedSound.workerStep (h : SharedSound w) (s : WorkerStep)
    (hg : ApartGuard w (.worker s)) : SharedSound (sharedStep w (.worker s)) := by
  by_cases hidle : w.worker = .idle
  swap
  · rw [show sharedStep w (.worker s) = w from if_pos hidle]
    exact h
  have hsettled := settled_workerStep s hidle hg
  have hstep := sharedStep_worker s hidle
  refine ⟨?_, ?_, ?_, ?_, ?_⟩
  · by_cases hs : (startWorkerStep w.world s).1 = .idle
    · exact Or.inr (by rw [hstep, hs])
    · exact Or.inl (by rw [hstep]; exact hg hs)
  · rw [hsettled]
    exact step_sized _ (.worker s) h.sized
  · rw [hsettled]
    exact h.calls (.worker s)
  · obtain ⟨hstate, hbuffer, hsize⟩ := workerStep_setting w.settled s
    rw [hsettled, hstate, hbuffer, hsize]
    intro hbusy
    refine h.reading ?_
    rw [hstep] at hbusy
    exact hbusy
  · rw [hsettled, hstep]
    intro hplace hstate hsize horder
    obtain ⟨hsame, -, hsize'⟩ := workerStep_setting w.settled s
    rw [hsame] at hstate
    rw [hsize'] at hsize
    have hbefore := workerStep_orderly w.settled s horder
    by_cases hs : (startWorkerStep w.world s).1 = .idle
    · have htested : w.reader = .tested := hplace.resolve_right fun hbusy => hbusy hs
      have hworld : w.settled = w.world := by
        rw [settled_idle hidle, htested]
        rfl
      have hcounters := congrArg World.outstandingWrites (workerStep_setCounters w.world s hs
        w.world.nextReadPacket w.world.outstandingWrites w.world.captureReadPackets)
      change (Capture.workerStep w.world s).outstandingWrites = w.world.outstandingWrites
        at hcounters
      rw [hworld, hcounters, ← hworld]
      exact h.unread (Or.inl htested) hstate hsize hbefore
    · have hworld : w.settled = w.world := by
        rw [settled_outside (hg hs), hidle]
        rfl
      exact h.completed s hs hworld hstate hsize horder

private theorem SharedSound.countStep (h : SharedSound w) : SharedSound (countStep w) := by
  by_cases hidle : w.worker = .idle
  · have hsame : Capture.countStep w = w := by
      unfold Capture.countStep
      rw [hidle]
    rw [hsame]
    exact h
  have hsettled : (Capture.countStep w).settled = w.settled := by
    unfold SharedWorld.settled
    rw [countStep_reader, countStep_finish]
  obtain ⟨h1, h2, h3, h4, h5⟩ := h
  refine ⟨Or.inl ?_, ?_, ?_, ?_, fun _ => ?_⟩
  · rw [countStep_reader]
    exact h1.resolve_right hidle
  · rwa [hsettled]
  · rwa [hsettled]
  · rwa [hsettled, countStep_reader]
  · rw [hsettled]
    exact h5 (Or.inr hidle)

/-- The tests of `GetReadPacket`, also in the middle of a completion. -/
private theorem SharedSound.test (h : SharedSound w) (hreader : w.reader = .idle)
    (hread : CanRead w.world) : SharedSound { w with reader := .tested } := by
  have hsettled : ({ w with reader := .tested } : SharedWorld).settled = w.settled := by
    unfold SharedWorld.settled
    rw [hreader]
    rfl
  obtain ⟨hready, hstate⟩ := hread
  rw [not_or] at hready hstate
  have hsetting := settled_setting w
  refine ⟨Or.inl (Or.inr rfl), ?_, ?_, fun _ => ?_, fun _ => ?_⟩
  · rw [hsettled]
    exact h.sized
  · rw [hsettled]
    exact h.accounted
  · rw [hsettled, hsetting.state, hsetting.buffer, hsetting.packetSize]
    exact ⟨not_ne_iff.mp hstate.1, Bool.not_eq_true _ ▸ hready.1, hready.2⟩
  · rw [hsettled]
    by_cases hidle : w.worker = .idle
    · intro _ _ _
      rw [settled_idle hidle, hreader]
      exact hstate.2
    · exact h.unread (Or.inr hidle)

private theorem SharedSound.handOut (h : SharedSound w) (hreader : w.reader = .tested)
    (hidle : w.worker = .idle) : SharedSound (readStep w) := by
  have hworld : w.settled = w.world := by
    rw [settled_idle hidle, hreader]
    rfl
  have hstep : readStep w = { w with
      world := w.world.note (.handedOut w.world.nextReadPacket)
      reader := .next w.world.nextReadPacket } := by
    unfold readStep
    rw [hreader]
  have hsettled : (readStep w).settled = { w.world with
      nextReadPacket := w.world.nextReadPacket + 1
      outstandingWrites := w.world.outstandingWrites - 1
      captureReadPackets := w.world.captureReadPackets + 1
      history := .handedOut w.world.nextReadPacket :: w.world.history } := by
    rw [hstep]
    exact settled_idle hidle
  obtain ⟨hstate, hbuffer, hsize⟩ := h.reading (by rw [hreader]; exact nofun)
  have hunread := h.unread (Or.inl hreader) hstate hsize
  have hcalls := h.calls .getReadPacket
  have hsized := h.sized
  rw [hworld] at hstate hbuffer hsize hunread hcalls hsized
  refine ⟨Or.inr (by rw [hstep]; exact hidle), ?_, ?_, ?_, ?_⟩
  · rw [hsettled]
    exact ⟨hsized.slots, hsized.empty⟩
  · rw [hsettled]
    intro hrun horder
    have hcall := (canRead_of hbuffer hsize hstate (hunread horder)).call
    have hwhole : step w.world .getReadPacket = { w.world with
        nextReadPacket := w.world.nextReadPacket + 1
        outstandingWrites := w.world.outstandingWrites - 1
        captureReadPackets := w.world.captureReadPackets + 1
        history := .handedOut w.world.nextReadPacket :: w.world.history } := by
      change (getReadPacket w.world).2.2.2 = _
      rw [hcall]
    rw [← hwhole] at hrun horder ⊢
    exact hcalls hrun horder
  · rw [hsettled]
    exact fun _ => ⟨hstate, hbuffer, hsize⟩
  · rw [hstep]
    rintro (htested | hbusy)
    · cases htested
    · exact absurd hidle hbusy

/-- The accesses behind the read of `m_NextReadPacket` finish the call that was counted there. -/
private theorem SharedSound.access (h : SharedSound w) (hinside : ¬ w.reader.Outside) :
    SharedSound (readStep w) := by
  have hidle := h.apart.resolve_left hinside
  have hreading := h.reading fun hr => hinside (Or.inl hr)
  obtain ⟨u, reader, worker⟩ := w
  obtain rfl : worker = .idle := hidle
  have hplace : (readStep ⟨u, reader, .idle⟩).worker = .idle ∧
      (readStep ⟨u, reader, .idle⟩).reader ≠ .tested ∧
      (readStep ⟨u, reader, .idle⟩).settled = (⟨u, reader, .idle⟩ : SharedWorld).settled := by
    cases reader with
    | idle => exact absurd (Or.inl rfl) hinside
    | tested => exact absurd (Or.inr rfl) hinside
    | next packet => exact ⟨rfl, nofun, rfl⟩
    | ready => exact ⟨rfl, nofun, rfl⟩
    | down outstanding => exact ⟨rfl, nofun, rfl⟩
  obtain ⟨hworker, hreader, hsettled⟩ := hplace
  refine ⟨Or.inr hworker, ?_, ?_, fun _ => ?_, ?_⟩
  · rw [hsettled]
    exact h.sized
  · rw [hsettled]
    exact h.accounted
  · rw [hsettled]
    exact hreading
  · rintro (htested | hbusy)
    · exact absurd htested hreader
    · exact absurd hworker hbusy

private theorem SharedSound.readStep (h : SharedSound w) (hg : ApartGuard w .read) :
    SharedSound (readStep w) := by
  by_cases hidle : w.reader = .idle
  · by_cases hread : CanRead w.world
    · have hstep : Capture.readStep w = { w with reader := .tested } := by
        unfold Capture.readStep
        rw [hidle]
        exact if_pos hread
      rw [hstep]
      exact h.test hidle hread
    · have hstep : Capture.readStep w = w := by
        unfold Capture.readStep
        rw [hidle]
        exact if_neg hread
      rw [hstep]
      exact h
  by_cases htested : w.reader = .tested
  · exact h.handOut htested (hg htested)
  · exact h.access fun houtside => houtside.elim hidle htested

end

private theorem sharedStep_sound (w : SharedWorld) (a : SharedAction) (h : SharedSound w)
    (hg : ApartGuard w a) : SharedSound (sharedStep w a) := by
  cases a with
  | setState target i => exact h.setState target i hg
  | worker s => exact h.workerStep s hg
  | count => exact h.countStep
  | read => exact h.readStep hg

private theorem SharedWorld.fresh_sound (allocated : Option ULONG) :
    SharedSound (SharedWorld.fresh allocated) := by
  refine ⟨Or.inr rfl, World.fresh_sized allocated, nofun, fun hbusy => absurd rfl hbusy, ?_⟩
  rintro (htested | hbusy)
  · cases htested
  · exact absurd rfl hbusy

/-! ## Packets between the device and the reader -/

/-- In KSSTATE_RUN, whatever order submissions, completions and reads come in, as long as the
accesses of a read and of a completion do not overlap: between them the completed packets are
handed out in order or dropped, none twice, and the counters say which. -/
theorem run_sharedAccounting (allocated : Option ULONG) (actions : List SharedAction)
    (hapart : Guarded sharedStep ApartGuard (SharedWorld.fresh allocated) actions)
    (hreader : (run sharedStep (SharedWorld.fresh allocated) actions).reader.Outside)
    (hworker : (run sharedStep (SharedWorld.fresh allocated) actions).worker = .idle)
    (hstate : (run sharedStep (SharedWorld.fresh allocated) actions).world.state = .run)
    (horder : ReturnedInOrder (run sharedStep (SharedWorld.fresh allocated) actions).world.history)
    (hfew : FewPackets (run sharedStep (SharedWorld.fresh allocated) actions).world.history) :
    PacketAccounting (run sharedStep (SharedWorld.fresh allocated) actions).world ∧
      ((run sharedStep (SharedWorld.fresh allocated) actions).reader = .tested →
        NextInWindow (run sharedStep (SharedWorld.fresh allocated) actions).world
          (run sharedStep (SharedWorld.fresh allocated) actions).world.nextReadPacket
          (run sharedStep (SharedWorld.fresh allocated) (actions ++ [.read])).world) := by
  have hsound := hapart.invariant (P := SharedSound) sharedStep_sound
    (SharedWorld.fresh_sound allocated)
  rw [run_concat]
  generalize run sharedStep (SharedWorld.fresh allocated) actions = w at *
  have hworld : w.settled = w.world := by
    rw [settled_outside hreader, hworker]
    rfl
  obtain ⟨-, -, haccounted, hreading, hunread⟩ := hsound
  rw [hworld] at haccounted hreading hunread
  obtain ⟨haccounted, hcursor⟩ := haccounted hstate ⟨horder, hfew⟩
  refine ⟨haccounted.packetAccounting hcursor, fun htested => ?_⟩
  obtain ⟨-, hbuffer, hsize⟩ := hreading (by rw [htested]; exact nofun)
  have hout := hunread (Or.inl htested) hstate hsize ⟨horder, hfew⟩
  obtain ⟨hbelow, hwindow, hearlier, -⟩ :=
    haccounted.nextInWindow (canRead_of hbuffer hsize hstate hout).call
  refine ⟨hbelow, hwindow, hearlier, ?_⟩
  have hstep : sharedStep w .read = { w with
      world := w.world.note (.handedOut w.world.nextReadPacket)
      reader := .next w.world.nextReadPacket } := by
    change readStep w = _
    unfold readStep
    rw [htested]
  rw [hstep]
  rfl

/-- A buffer of two packets: a call passes its tests while packet 0 is counted, packet 1 fails,
packet 3 overruns the reader, and a buffer is submitted between the accesses of the call. -/
def sharedOverrun : List SharedAction :=
  [.setState .run .granted, .worker (.submit .queued), .worker (.submit .queued),
    .worker (.reclaim (.used 0 2056 true fun _ => 0)), .count, .read, .count,
    .worker (.reclaim (.used 0 2056 false fun _ => 0)), .worker (.submit .queued),
    .worker (.reclaim (.used 0 2056 true fun _ => 0)), .count, .count, .count, .count, .count,
    .count, .read, .worker (.submit .queued), .read, .read, .read,
    .worker (.reclaim (.used 0 2056 true fun _ => 0)), .count, .count, .read]

theorem run_sharedAccounting_overrun :
    let w := run sharedStep (SharedWorld.fresh (some 4096)) sharedOverrun
    PacketAccounting w.world ∧ (w.reader = .tested →
      NextInWindow w.world w.world.nextReadPacket
        (run sharedStep (SharedWorld.fresh (some 4096)) (sharedOverrun ++ [.read])).world) := by
  apply run_sharedAccounting (some 4096) sharedOverrun
  · decide +kernel
  · decide +kernel
  · decide +kernel
  · decide +kernel
  · decide +kernel
  · decide +kernel

/-- Packet 1 is completed while a read of packet 0 is between its two stores: one packet is unread
and none is counted. -/
def lateDecrement : List SharedAction :=
  [.setState .run .granted, .worker (.submit .queued), .worker (.submit .queued),
    .worker (.reclaim (.used 0 2056 true fun _ => 0)), .count, .count, .read, .read, .read,
    .worker (.reclaim (.used 0 2056 true fun _ => 0)), .count, .count, .read, .read]

/-- Packet 2 overruns a read of packet 0 before its first store: packet 0 is handed out and
dropped. -/
def lateAdvance : List SharedAction :=
  [.setState .run .granted, .worker (.submit .queued), .worker (.submit .queued),
    .worker (.reclaim (.used 0 2056 true fun _ => 0)), .count, .count,
    .worker (.reclaim (.used 0 2056 true fun _ => 0)), .count, .count, .worker (.submit .queued),
    .read, .read, .worker (.reclaim (.used 0 2056 true fun _ => 0)), .count, .count, .count,
    .count, .count, .count, .read, .read, .read]

/-- The calls and the completions are all finished, and the buffers came back in order. -/
def Quiet (w : SharedWorld) : Prop :=
  w.reader = .idle ∧ w.worker = .idle ∧ w.world.state = .run ∧ Orderly w.world

instance (w : SharedWorld) : Decidable (Quiet w) :=
  inferInstanceAs (Decidable (w.reader = .idle ∧ w.worker = .idle ∧ w.world.state = .run ∧
    Orderly w.world))

theorem run_not_sharedAccounting :
    let w := run sharedStep (SharedWorld.fresh (some 4096)) lateDecrement
    let v := run sharedStep (SharedWorld.fresh (some 4096)) lateAdvance
    (Quiet w ∧ ¬ PacketAccounting w.world ∧ w.world.nextReadPacket = 1 ∧
      w.world.outstandingWrites = 0 ∧ w.world.packetNumber = 2) ∧
    Quiet v ∧ ¬ PacketAccounting v.world ∧ 0 ∈ (books v.world.history).handedOut ∧
      0 ∈ (books v.world.history).dropped := by
  intro w v
  have hw : Quiet w ∧ w.world.nextReadPacket = 1 ∧ w.world.outstandingWrites = 0 ∧
      w.world.packetNumber = 2 := by decide +kernel
  have hv : Quiet v ∧ v.world.captureReadPackets.toNat + v.world.captureOverflows.toNat = 2 ∧
      v.world.nextReadPacket.toNat = 1 ∧ 0 ∈ (books v.world.history).handedOut ∧
      0 ∈ (books v.world.history).dropped := by decide +kernel
  obtain ⟨hquiet, hnext, hout, hpacket⟩ := hw
  obtain ⟨hquiet', hcounted, hnext', htwice⟩ := hv
  refine ⟨⟨hquiet, fun h => ?_, hnext, hout, hpacket⟩, hquiet', fun h => ?_, htwice⟩
  · have hcursor := h.cursor
    rw [hnext, hout, hpacket] at hcursor
    exact absurd hcursor (by decide)
  · have hsum := h.counted
    rw [hcounted, hnext'] at hsum
    exact absurd hsum (by decide)

end Viosnd.Capture
