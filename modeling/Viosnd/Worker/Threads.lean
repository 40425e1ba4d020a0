import Viosnd.Basic
import Viosnd.Lib.Runs
import Viosnd.Lib.ThreadPool

/-!
# The worker threads of a stream

`StartRenderWorker`, `StopRenderWorker`, `Release`, `ViosndRenderThread` and what `SetState` makes
of them, for both directions. The caller of the stream and the threads it created take turns between
any two accesses to what they share: `m_StopEvent`, `m_ThreadObject`, `m_WorkerStarted`,
`ViosndCaptureFaulted` and `m_RefCount`. A thread is known by the number of threads created before
it.
-/

namespace Viosnd.Worker

/-- The fields of a stream that say whether it has a worker. -/
structure Stream where
  capture : Bool
  state : KsState
  stopEvent : Bool
  threadObject : Option ℕ
  workerStarted : Bool
  /-- `ViosndCaptureFaulted`, which all capture streams share. -/
  captureFaulted : Bool
  refCount : ℕ
  deriving DecidableEq, Repr

/-! ## StopRenderWorker -/

/-- Where a thread is in `StopRenderWorker`: the access it makes next. -/
inductive StopAt where
  | read
  | signal (thread : ℕ)
  | wait (thread : ℕ)
  | clearObject (stopped : Bool)
  | clearStarted (stopped : Bool)
  | returned (stopped : Bool)
  deriving DecidableEq, Repr

/-- `ended` says which threads have terminated, `inTime` is `false` when the wait times out. -/
def stopRenderWorker (ended : ℕ → Bool) (inTime : Bool) (s : Stream) : StopAt → Stream × StopAt
  | .read =>
      match s.threadObject with
      | none => (s, .clearStarted true)
      | some thread => (s, .signal thread)
  | .signal thread =>
      ({ s with
        stopEvent := true }, .wait thread)
  | .wait thread =>
      if inTime = false then
        if s.capture then
          ({ s with
            captureFaulted := true }, .clearObject false)
        else (s, .returned false)
      else if ended thread then (s, .clearObject true)
      else (s, .wait thread)
  | .clearObject stopped =>
      ({ s with
        threadObject := none }, .clearStarted stopped)
  | .clearStarted stopped =>
      ({ s with
        workerStarted := false }, .returned stopped)
  | .returned stopped => (s, .returned stopped)

/-! ## Release -/

inductive ReleaseAt where
  | check
  | stop (place : StopAt)
  | decrement
  /-- The count has come to zero. -/
  | last
  | lastStop (place : StopAt)
  | returned
  deriving DecidableEq, Repr

/-- `self` is `PsGetCurrentThread()` when that is a worker. -/
def release (ended : ℕ → Bool) (self : Option ℕ) (inTime : Bool) (s : Stream) :
    ReleaseAt → Stream × ReleaseAt
  | .check =>
      if s.threadObject ≠ none ∧ s.threadObject ≠ self then (s, .stop .read)
      else (s, .decrement)
  | .stop (.returned _) => (s, .decrement)
  | .stop place =>
      let (s, place) := stopRenderWorker ended inTime s place
      (s, .stop place)
  | .decrement =>
      ({ s with
        refCount := s.refCount - 1 }, if s.refCount - 1 = 0 then .last else .returned)
  | .last =>
      -- a worker that drops the last reference only forgets its own object
      if s.threadObject ≠ none ∧ s.threadObject = self then (s, .lastStop (.clearObject true))
      else (s, .lastStop .read)
  | .lastStop (.returned _) => (s, .returned)
  | .lastStop place =>
      let (s, place) := stopRenderWorker ended inTime s place
      (s, .lastStop place)
  | .returned => (s, .returned)

/-! ## The threads -/

/-- Where a worker is in `ViosndRenderThread`. -/
inductive Place where
  | starting
  | loop
  /-- It has seen that it must stop and has not returned from its loop. -/
  | leaving
  | release (place : ReleaseAt)
  | terminated
  deriving DecidableEq, Repr

/-- The thread is in `RenderWorkerLoop` or `CaptureWorkerLoop`. -/
def Place.inLoop : Place → Bool
  | .loop | .leaving => true
  | _ => false

/-- The render loop looks at the event, the capture loop also at `m_State`. -/
def Stream.seesStop (s : Stream) : Bool :=
  s.stopEvent || (s.capture && s.state != .run)

/-- One step of the worker `self`. -/
def moveWorker (ended : ℕ → Bool) (self : ℕ) (inTime : Bool) (s : Stream) :
    Place → Stream × Place
  | .starting => (s, .loop)
  | .loop => (s, if s.seesStop then .leaving else .loop)
  | .leaving => (s, .release .check)
  | .release .returned => (s, .terminated)
  | .release place =>
      let (s, place) := release ended (some self) inTime s place
      (s, .release place)
  | .terminated => (s, .terminated)

/-! ## The caller -/

/-- Where `SetState(KSSTATE_RUN)` is, from another state on: `test` to `setStop` are
`StartRenderWorker`. -/
inductive StartAt where
  /-- A capture stream looks at `ViosndCaptureFaulted`. -/
  | checkFaulted
  /-- The commands and buffers up to START. -/
  | prepare
  | enterRun
  | test
  | allocatePool
  | clearStop
  | addRef
  | createThread
  /-- No thread was created: `Release`. -/
  | drop (place : ReleaseAt)
  | referenceObject (thread : ℕ)
  | setStarted
  /-- The thread object could not be referenced: `KeSetEvent`. -/
  | setStop
  /-- The start failed: `m_State = oldState`. -/
  | restore
  deriving DecidableEq, Repr

/-- Where `SetState` is when the stream leaves RUN, once `m_State` is written. -/
inductive LeaveAt where
  | test
  | stop (place : StopAt)
  /-- STOP and RELEASE of a render stream, RELEASE of a capture stream. -/
  | quiesce (stopped : Bool)
  /-- The second `StopRenderWorker` of a render stream. -/
  | stopAgain (place : StopAt)
  /-- A released capture stream is configured again. -/
  | configure (stopped : Bool)
  | finish (stopped : Bool)
  deriving DecidableEq, Repr

inductive CallerAt where
  | idle
  | start (oldState : KsState) (place : StartAt)
  | leave (place : LeaveAt)
  | release (place : ReleaseAt)
  deriving DecidableEq, Repr

structure World where
  stream : Stream
  threads : List Place
  caller : CallerAt
  /-- The references of the caller, less the one a call to `Release` gives up. -/
  callerRefs : ℕ
  /-- The threads `ObReferenceObjectByHandle` failed for. -/
  unreferenced : List ℕ
  deriving DecidableEq, Repr

def World.ended (w : World) (thread : ℕ) : Bool := w.threads[thread]? == some .terminated

/-- One step of `SetState(KSSTATE_RUN)`. `granted` is the outcome of what the step asks for; for a
wait, that it ends before its timeout. -/
def moveStart (granted : Bool) (oldState : KsState) (w : World) : StartAt → World
  | .checkFaulted => { w with
      caller := if w.stream.captureFaulted then .idle else .start oldState .prepare }
  | .prepare => { w with
      caller := .start oldState (if granted then .enterRun else .restore) }
  | .enterRun => { w with
      stream := { w.stream with
        state := .run }
      caller := .start oldState .test }
  | .test => { w with
      caller := if w.stream.workerStarted then .idle else .start oldState .allocatePool }
  | .allocatePool => { w with
      caller := .start oldState (if granted then .clearStop else .restore) }
  | .clearStop => { w with
      stream := { w.stream with
        stopEvent := false }
      caller := .start oldState .addRef }
  | .addRef => { w with
      stream := { w.stream with
        refCount := w.stream.refCount + 1 }
      caller := .start oldState .createThread }
  | .createThread =>
      if granted then { w with
        threads := w.threads ++ [.starting]
        caller := .start oldState (.referenceObject w.threads.length) }
      else { w with
        caller := .start oldState (.drop .check) }
  | .drop .returned => { w with
      caller := .start oldState .restore }
  | .drop place =>
      let (stream, place) := release w.ended none granted w.stream place
      { w with
        stream := stream
        caller := .start oldState (.drop place) }
  | .referenceObject thread =>
      if granted then { w with
        stream := { w.stream with
          threadObject := some thread }
        caller := .start oldState .setStarted }
      else { w with
        unreferenced := w.unreferenced ++ [thread]
        caller := .start oldState .setStop }
  | .setStarted => { w with
      stream := { w.stream with
        workerStarted := true }
      caller := .idle }
  | .setStop => { w with
      stream := { w.stream with
        stopEvent := true }
      caller := .start oldState .restore }
  | .restore => { w with
      stream := { w.stream with
        state := oldState }
      caller := .idle }

/-- One step of `SetState` out of RUN. -/
def moveLeave (granted : Bool) (w : World) : LeaveAt → World
  | .test => { w with
      caller := .leave (if w.stream.workerStarted then .stop .read else .quiesce true) }
  | .stop (.returned stopped) => { w with
      caller := .leave (.quiesce stopped) }
  | .stop place =>
      let (stream, place) := stopRenderWorker w.ended granted w.stream place
      { w with
        stream := stream
        caller := .leave (.stop place) }
  | .quiesce stopped =>
      if w.stream.capture then
        if granted then { w with
          caller := .leave (.configure stopped) }
        else { w with
          stream := { w.stream with
            captureFaulted := true }
          caller := .leave (.finish true) }
      else if stopped = false ∧ w.stream.workerStarted then { w with
        caller := .leave (.stopAgain .read) }
      else { w with
        caller := .leave (.finish stopped) }
  | .stopAgain (.returned stopped) => { w with
      caller := .leave (.finish stopped) }
  | .stopAgain place =>
      let (stream, place) := stopRenderWorker w.ended granted w.stream place
      { w with
        stream := stream
        caller := .leave (.stopAgain place) }
  | .configure stopped => { w with
      stream := { w.stream with
        captureFaulted := w.stream.captureFaulted || !(stopped && granted) }
      caller := .leave (.finish true) }
  | .finish stopped => { w with
      -- a render stream whose worker did not stop stays in RUN
      stream := { w.stream with
        state := if stopped then w.stream.state else .run }
      caller := .idle }

def moveCaller (granted : Bool) (w : World) : World :=
  match w.caller with
  | .idle => w
  | .start oldState place => moveStart granted oldState w place
  | .leave place => moveLeave granted w place
  | .release .returned => { w with
      caller := .idle }
  | .release place =>
      let (stream, place) := release w.ended none granted w.stream place
      { w with
        stream := stream
        caller := .release place }

/-- `SetState`, up to its first access to what the workers see. -/
def callSetState (state : KsState) (w : World) : World :=
  if state = .run ∧ w.stream.state ≠ .run then { w with
    caller := .start w.stream.state (if w.stream.capture then .checkFaulted else .prepare) }
  else if state ≠ .run ∧ w.stream.state = .run then { w with
    stream := { w.stream with
      state := state }
    caller := .leave .test }
  else { w with
    stream := { w.stream with
      state := state } }

/-! ## Runs -/

inductive Input where
  | setState (state : KsState)
  | addRef
  | release
  | caller (granted : Bool)
  | worker (thread : ℕ) (inTime : Bool)
  /-- Another capture stream is left faulted. -/
  | faultElsewhere
  deriving DecidableEq, Repr

/-- The calls a caller makes while it has a reference and no other call is under way. -/
def World.ready (w : World) : Prop := w.caller = .idle ∧ 0 < w.callerRefs

instance (w : World) : Decidable w.ready := inferInstanceAs (Decidable (_ ∧ _))

def World.step (w : World) : Input → World
  | .setState state => if w.ready then callSetState state w else w
  | .addRef =>
      if w.ready then { w with
        stream := { w.stream with
          refCount := w.stream.refCount + 1 }
        callerRefs := w.callerRefs + 1 }
      else w
  | .release =>
      if w.ready then { w with
        caller := .release .check
        callerRefs := w.callerRefs - 1 }
      else w
  | .caller granted => moveCaller granted w
  | .worker thread inTime =>
      match w.threads[thread]? with
      | none => w
      | some place =>
          let (stream, place) := moveWorker w.ended thread inTime w.stream place
          { w with
            stream := stream
            threads := w.threads.set thread place }
  | .faultElsewhere => { w with
      stream := { w.stream with
        captureFaulted := true } }

def World.fresh (capture captureFaulted : Bool) : World where
  stream := {
    capture := capture
    state := .stop
    stopEvent := false
    threadObject := none
    workerStarted := false
    captureFaulted := captureFaulted
    refCount := 1 }
  threads := []
  caller := .idle
  callerRefs := 1
  unreferenced := []

end Viosnd.Worker
